import GnomeShellMobile.TimeLimitsManager.StartStop

/-!
# TimeLimitsManager — frozen notifications

`_startStateMachine` calls `freeze_notify` when it begins and `thaw_notify` when it ends. A start that
throws in between ends without the latter.

* `excess` — the freezes that belong to no start that still runs (`excess_resume`).
* `Frozen` — there are none of them.
-/

namespace TimeLimitsManager

def Thread.isStart : Thread → Bool
  | .startRead _ | .startLoad _ _ | .inhibit (some _) _ | .startInhibited _ | .startLoginUser _
  | .startUpdate _ => true
  | _ => false

namespace State

variable {tz : LocalTime} {s s' : State}

variable (s)

def pendingStarts : Nat := s.threads.countP Thread.isStart

def Frozen : Prop := s.freezes = s.pendingStarts

def FindsLogind (answer : Option Nat) : Thread → Prop
  | .startInhibited _ => s.loginManager = true
  | .startLoginUser _ =>
      answer ≠ none ∧ (s.loginManager = true ∨ s.login.active = false ∨ s.login.idleHint = true)
  | _ => True

instance (answer : Option Nat) (t : Thread) : Decidable (s.FindsLogind answer t) := by
  rcases t with _ | _ <;> unfold FindsLogind <;> infer_instance

def Uninterrupted : Event → Prop
  | .resume i answer => ∀ t ∈ s.threads[i]?, s.FindsLogind answer t
  | _ => True

instance (e : Event) : Decidable (s.Uninterrupted e) := by
  rcases e with _ | _ <;> unfold Uninterrupted <;> infer_instance

variable {s}

/-! ## What is kept -/

def excess (s : State) : Int := s.freezes - s.pendingStarts

theorem frozen_iff : s.Frozen ↔ s.excess = 0 := by
  unfold Frozen excess
  omega

theorem excess_congr (hfreezes : s'.freezes = s.freezes) (hthreads : s'.threads = s.threads) :
    s'.excess = s.excess := by
  rw [excess, excess, pendingStarts, pendingStarts, hfreezes, hthreads]

theorem excess_push (s : State) (t : Thread) :
    (s.push t).excess = s.excess - if t.isStart then 1 else 0 := by
  rw [excess, excess, pendingStarts, pendingStarts]
  change s.freezes - ((t :: s.threads).countP Thread.isStart : Int) = _
  rw [List.countP_cons]
  split <;> omega

theorem excess_push_of_not (s : State) {t : Thread} (ht : t.isStart = false) :
    (s.push t).excess = s.excess := by
  rw [excess_push, ht]
  exact Int.sub_zero _

theorem updateState_same (tz : LocalTime) (s : State) :
    (s.updateState tz).freezes = s.freezes ∧ (s.updateState tz).threads = s.threads := by
  obtain ⟨scheduled, hscheduled, heq⟩ := s.updateState_cases tz
  have hsame : scheduled.freezes = s.freezes ∧ scheduled.threads = s.threads := by
    rcases hscheduled with rfl | ⟨t, rfl⟩ <;> exact ⟨rfl, rfl⟩
  rw [heq, saveState]
  split <;> exact hsame

theorem excess_updateState (s : State) : (s.updateState tz).excess = s.excess :=
  excess_congr (updateState_same tz s).1 (updateState_same tz s).2

theorem excess_addTransition (s : State) (oldState newState : UserState) (t : Int)
    (recalculate : Bool) :
    (s.addTransition tz oldState newState t recalculate).excess = s.excess := by
  unfold addTransition
  split
  · exact excess_updateState _
  · rfl

theorem excess_storeTransitions (s : State) (preparing : Option Bool) :
    (s.storeTransitions preparing).excess = s.excess :=
  excess_push_of_not _ rfl

theorem excess_updateUserState {store : Bool} (h : s.updateUserState tz = some (s', store)) :
    s'.excess = s.excess := by
  obtain ⟨newState, -, hpair⟩ := Option.map_eq_some_iff.mp h
  split at hpair
  · cases hpair
    rfl
  · cases hpair
    exact excess_addTransition ..

theorem excess_onPropertiesChanged (s : State) : (s.onPropertiesChanged tz).excess = s.excess := by
  unfold onPropertiesChanged
  split
  · rfl
  · next h => exact excess_updateUserState h
  · next h => exact (excess_storeTransitions _ _).trans (excess_updateUserState h)

theorem excess_ensureInhibitor_none (s : State) : (s.ensureInhibitor none).excess = s.excess := by
  unfold ensureInhibitor
  split
  · rfl
  · split
    · exact excess_push_of_not _ rfl
    · rfl

theorem excess_ensureInhibitor_some (h : s.loginManager = true) (c : Nat) :
    (s.ensureInhibitor (some c)).excess = s.excess - 1 := by
  unfold ensureInhibitor
  split
  · exact excess_push _ _
  · exact excess_push _ _

variable (s)

theorem excess_comeBack (preparing : Bool) : (s.comeBack preparing).excess = s.excess := by
  unfold comeBack
  split
  · rfl
  · exact (excess_congr rfl rfl).trans (excess_ensureInhibitor_none s)

theorem excess_onPrepareForSleep (preparing : Bool) :
    (s.onPrepareForSleep tz preparing).excess = s.excess := by
  have hcome := excess_comeBack s preparing
  unfold onPrepareForSleep
  split
  · exact (excess_push_of_not _ rfl).trans hcome
  · next h => exact (excess_push_of_not _ rfl).trans ((excess_updateUserState h).trans hcome)
  · next h => exact (excess_storeTransitions _ _).trans ((excess_updateUserState h).trans hcome)

theorem excess_stopStateMachine : (s.stopStateMachine tz).excess = s.excess := by
  have hdisconnect : s.disconnect.excess = s.excess := rfl
  have hshutdown : (s.disconnect.addShutdown tz).excess = s.excess := by
    unfold addShutdown
    split
    · exact excess_addTransition ..
    · rfl
  unfold stopStateMachine
  split
  · exact (excess_push_of_not _ rfl).trans hshutdown
  · exact excess_push_of_not _ rfl

theorem excess_freeze :
    ({ s with freezes := s.freezes + 1 } : State).excess = s.excess + 1 := by
  change s.freezes + 1 - (s.pendingStarts : Int) = s.freezes - s.pendingStarts + 1
  omega

theorem excess_thaw :
    ({ s with freezes := s.freezes - 1 } : State).excess = s.excess - 1 := by
  change s.freezes - 1 - (s.pendingStarts : Int) = s.freezes - s.pendingStarts - 1
  omega

theorem excess_startStateMachine : s.startStateMachine.excess = s.excess := by
  have hfrozen := excess_freeze s
  refine (excess_push _ _).trans ?_
  change ({ s with freezes := s.freezes + 1 } : State).excess - 1 = s.excess
  omega

theorem excess_updateSettings : (s.updateSettings tz).excess = s.excess := by
  unfold updateSettings
  split
  · split
    · exact excess_stopStateMachine s
    · rfl
  · split
    · exact excess_startStateMachine s
    · exact excess_updateState s

theorem excess_onTimeChange : (s.onTimeChange tz).excess = s.excess := by
  unfold onTimeChange
  split
  · rfl
  · exact (excess_updateState _).trans ((excess_storeTransitions _ _).trans (excess_congr rfl rfl))

variable {s}

theorem excess_loadTransitions (tz : LocalTime) (s : State) (result : ReadResult) :
    (s.loadTransitions tz result).1.excess = s.excess := by
  cases result with
  | error => rfl
  | notFound => rfl
  | contents contents =>
    cases contents with
    | notAnArray => rfl
    | entries l =>
      have hloaded := Tidy.loadEntries_induction tz (P := fun s' => s'.excess = s.excess + 1) l
        s.clock.realTimeSecs (fun _ _ _ _ _ h => (excess_addTransition ..).trans h) 0 (excess_freeze s)
      refine (excess_thaw _).trans ?_
      rw [hloaded]
      omega

theorem excess_startLoad (s : State) (c : Nat) (result : ReadResult) (listens : Bool) :
    (s.startLoad tz c result listens).excess = s.excess - 1 := by
  have hstartup : ((s.loadTransitions tz result).1.addStartup tz).excess = s.excess := by
    refine Eq.trans ?_ (excess_loadTransitions tz s result)
    unfold addStartup
    split
    · exact excess_addTransition ..
    · rfl
  have hlisten : (((s.loadTransitions tz result).1.addStartup tz).listenToClock listens).excess =
      s.excess := by
    refine Eq.trans ?_ hstartup
    unfold listenToClock
    split <;> rfl
  exact (excess_ensureInhibitor_some rfl c).trans (congrArg (· - 1) hlisten)

theorem excess_takeInhibitor (s : State) (cancellable : Option Nat) (ok : Bool) :
    (s.takeInhibitor cancellable ok).excess = s.excess := by
  unfold takeInhibitor
  split <;> rfl

theorem excess_completeFile (s : State) (cancellable : Option Nat) (op : FileOp) (ok : Bool) :
    (s.completeFile cancellable op ok).excess = s.excess := by
  unfold completeFile
  split
  · rfl
  · split <;> rfl

/-! ## A start goes on -/

theorem calculateUserStateFromLogind_eq_none_iff (s : State) (proxy : Option Nat) (c : Nat) :
    (s.listenToUser proxy).calculateUserStateFromLogind = none ↔
      ¬s.FindsLogind proxy (.startLoginUser c) := by
  unfold calculateUserStateFromLogind FindsLogind
  cases proxy <;> cases hm : s.loginManager <;> cases ha : s.login.active <;>
    cases hi : s.login.idleHint <;> simp [listenToUser, hm, ha, hi]

theorem excess_resume (tz : LocalTime) (s : State) (t : Thread) (answer : Option Nat) :
    (s.resume tz t answer).excess =
      s.excess - (if t.isStart then 1 else 0) + if s.FindsLogind answer t then 0 else 1 := by
  have hzero : s.excess - 0 + 0 = s.excess := by omega
  have hone : s.excess - 1 + 0 = s.excess - 1 := by omega
  cases t with
  | startRead c => exact (excess_push _ _).trans hone.symm
  | startLoad c result => exact (excess_startLoad s c result _).trans hone.symm
  | inhibit start cancellable =>
    have htaken := excess_takeInhibitor s cancellable answer.isSome
    cases start with
    | none => exact htaken.trans hzero.symm
    | some c =>
      refine (excess_push _ _).trans (Eq.trans ?_ hone.symm)
      rw [htaken]
      rfl
  | startInhibited c =>
    change (s.startInhibited c).excess =
      s.excess - 1 + if s.loginManager = true then 0 else 1
    unfold startInhibited
    split
    · exact (excess_push _ _).trans hone.symm
    · omega
  | startLoginUser c =>
    have hnone := calculateUserStateFromLogind_eq_none_iff s answer c
    have hlisten : (s.listenToUser answer).excess = s.excess := rfl
    change (s.startLoginUser tz c answer).excess =
      s.excess - 1 + if s.FindsLogind answer (.startLoginUser c) then 0 else 1
    unfold startLoginUser
    split
    · next h =>
      rw [if_neg (hnone.mp (Option.map_eq_none_iff.mp h)), hlisten]
      omega
    · next h =>
      have hsome : ¬(s.listenToUser answer).calculateUserStateFromLogind = none := by
        intro hcalc
        rw [updateUserState, hcalc] at h
        cases h
      rw [if_pos (not_not.mp (hnone.not.mp hsome)), excess_push, excess_updateUserState h, hlisten]
      exact hone.symm
  | startUpdate c =>
    have hsame : (s.startUpdate tz).excess = ({ s with freezes := s.freezes - 1 } : State).excess :=
      excess_congr rfl (updateState_same tz s).2
    exact (hsame.trans (excess_thaw s)).trans hone.symm
  | stopFile cancellable op =>
    exact ((excess_push_of_not _ rfl).trans (excess_completeFile s cancellable op _)).trans hzero.symm
  | stopTail own => exact hzero.symm
  | storeFile cancellable op preparing =>
    have hfile := excess_completeFile s cancellable op answer.isSome
    cases preparing with
    | none => exact hfile.trans hzero.symm
    | some preparing => exact ((excess_push_of_not _ rfl).trans hfile).trans hzero.symm
  | sleepUpdated preparing =>
    refine Eq.trans ?_ hzero.symm
    cases preparing <;> rfl

/-! ## Runs -/

theorem excess_take {i : Nat} {t : Thread} {rest : List Thread}
    (h : Runs.take s.threads i = some (t, rest)) :
    ({ s with threads := rest } : State).excess = s.excess + if t.isStart then 1 else 0 := by
  have hcount := (Runs.take_perm h).countP_eq Thread.isStart
  rw [List.countP_cons] at hcount
  unfold excess pendingStarts
  dsimp only
  rw [hcount]
  split <;> omega

theorem excess_iterate {f : State → State} (hf : ∀ s : State, (f s).excess = s.excess) (n : Nat)
    (s : State) : (Nat.iterate f n s).excess = s.excess := by
  induction n generalizing s with
  | zero => rfl
  | succ n ih => exact (ih (f s)).trans (hf s)

theorem excess_step {e : Event} (h : s.step tz e = some s') :
    s'.excess = s.excess + if s.Uninterrupted e then 0 else 1 := by
  have hzero : s.excess = s.excess + 0 := (Int.add_zero _).symm
  cases e with
  | changeSettings settings =>
    cases h
    exact (excess_updateSettings _).trans hzero
  | shutdown =>
    cases h
    exact (excess_stopStateMachine _).trans hzero
  | pass secs | sleep secs | setClock secs =>
    cases h
    exact hzero
  | timeChange source =>
    obtain ⟨-, heq⟩ := Option.ite_none_right_eq_some.mp h
    cases heq
    exact (excess_onTimeChange s).trans hzero
  | timer id =>
    obtain ⟨-, heq⟩ := Option.ite_none_right_eq_some.mp h
    cases heq
    exact ((excess_updateState _).trans (excess_congr rfl rfl)).trans hzero
  | propertiesChanged active idleHint =>
    cases h
    exact (excess_iterate excess_onPropertiesChanged _ _).trans hzero
  | prepareForSleep preparing =>
    cases h
    exact (excess_iterate (fun s => excess_onPrepareForSleep s preparing) _ _).trans hzero
  | resume i answer =>
    obtain ⟨⟨t, rest⟩, htake, heq⟩ := Option.map_eq_some_iff.mp h
    cases heq
    have hresume := excess_resume tz { s with threads := rest } t answer
    have hfinds : s.Uninterrupted (.resume i answer) ↔
        ({ s with threads := rest } : State).FindsLogind answer t := by
      have hget := Runs.getElem?_of_take htake
      have hsame : ({ s with threads := rest } : State).FindsLogind answer t ↔
          s.FindsLogind answer t := by
        cases t <;> exact Iff.rfl
      rw [hsame]
      constructor
      · exact fun hall => hall t hget
      · intro hfinds u hu
        obtain rfl := Option.some.inj (hget.symm.trans hu)
        exact hfinds
    rw [hresume, excess_take htake]
    simp only [hfinds]
    omega

/-- Notifications are frozen by the starts that have not settled, and by nothing else, exactly if none
of them ends early. -/
theorem run_frozen_iff (tz : LocalTime) (settings : Settings) (clock : Clock) (login : Login)
    (file : Option Contents) {es : List Event} {t : State}
    (hrun : Runs.run (step tz) (start tz settings clock login file) es = some t) :
    Runs.Always (step tz) Frozen (start tz settings clock login file) es ↔
      Runs.Allowed (step tz) Uninterrupted (start tz settings clock login file) es := by
  apply Runs.always_iff_allowed _ _ hrun
  · exact frozen_iff.mpr (excess_updateSettings (State.init settings clock login file))
  · intro u e v hu hstep
    have hexcess := excess_step hstep
    rw [frozen_iff.mp hu] at hexcess
    rw [frozen_iff, hexcess]
    split
    · next h => exact iff_of_true rfl h
    · next h => exact iff_of_false (by decide) h

theorem run_frozen_iff_started : Runs.Always (step utc) Frozen tenSeconds startedAndStopped := by
  obtain ⟨t, hrun⟩ := Option.isSome_iff_exists.mp
    (by decide : (Runs.run (step utc) tenSeconds startedAndStopped).isSome)
  exact (run_frozen_iff utc _ _ _ _ hrun).mpr (by decide)

/-- The setting is switched off while the inhibitor is taken: the start finds no login manager, and
everything settles with the notifications frozen. -/
theorem not_run_frozen : ∃ t, Runs.run (step utc) tenSeconds
        [.resume 0 (some 0), .resume 0 (some 0), .changeSettings ⟨false, true, 10⟩,
          .resume 0 (some 0), .resume 0 (some 0), .resume 0 (some 0), .resume 0 (some 0)] = some t ∧
      t.threads = [] ∧ t.freezes = 1 := by
  decide

end State

end TimeLimitsManager
