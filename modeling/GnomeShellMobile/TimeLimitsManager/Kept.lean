import GnomeShellMobile.Runs.Basic
import GnomeShellMobile.TimeLimitsManager.Step

/-!
# TimeLimitsManager — what the updates decide

Only `_updateState` is logged and only `_updateState` sets a timer; the other functions leave the log
as it is and drop timers at most. So a property of the log and of the timers that are pending holds
in a whole run if `_updateState` keeps it and it does not need any timer.
-/

namespace TimeLimitsManager.State

variable {tz : LocalTime} {s : State} {P : State → Prop}

/-- `P` is about the log and the timers, does not need any timer, and is kept by `_updateState`. -/
structure KeptByUpdates (tz : LocalTime) (P : State → Prop) : Prop where
  congr : ∀ {s s' : State}, P s → s'.updates = s.updates → s'.timers ⊆ s.timers → P s'
  updateState : ∀ {s : State}, P s → P (s.updateState tz)

namespace KeptByUpdates

variable (hP : KeptByUpdates tz P)
include hP

section

variable (h : P s)
include h

theorem same {s' : State} (hupdates : s'.updates = s.updates)
    (htimers : s'.timers = s.timers) : P s' :=
  hP.congr h hupdates (htimers ▸ List.Subset.refl _)

theorem addTransition (oldState newState : UserState) (t : Int) (recalculate : Bool) :
    P (s.addTransition tz oldState newState t recalculate) := by
  have hs' : P (s.recordTransition oldState newState t) := hP.same h rfl rfl
  rw [State.addTransition]
  split
  · exact hP.updateState hs'
  · exact hs'

theorem updateUserState {s' : State} {store : Bool}
    (heq : s.updateUserState tz = some (s', store)) : P s' := by
  obtain ⟨newState, -, hpair⟩ := Option.map_eq_some_iff.mp heq
  split at hpair
  · cases hpair
    exact h
  · cases hpair
    exact hP.addTransition h _ _ _ _

theorem onPropertiesChanged : P (s.onPropertiesChanged tz) := by
  rw [State.onPropertiesChanged]
  split
  · exact h
  · next heq => exact hP.updateUserState h heq
  · next heq => exact hP.same (hP.updateUserState h heq) rfl rfl

theorem ensureInhibitor (start : Option Nat) : P (s.ensureInhibitor start) := by
  unfold State.ensureInhibitor
  split
  · split
    · exact hP.same h rfl rfl
    · exact h
  · split
    · exact hP.same h rfl rfl
    · exact h

theorem takeInhibitor (c : Option Nat) (ok : Bool) : P (s.takeInhibitor c ok) := by
  rw [State.takeInhibitor]
  split
  · exact h
  · exact hP.same h rfl rfl

theorem onPrepareForSleep (preparing : Bool) : P (s.onPrepareForSleep tz preparing) := by
  have hs' : P (s.comeBack preparing) := by
    cases preparing with
    | true => exact h
    | false => exact hP.same (hP.ensureInhibitor h none) rfl rfl
  rw [State.onPrepareForSleep]
  split
  · exact hP.same hs' rfl rfl
  · next heq => exact hP.same (hP.updateUserState hs' heq) rfl rfl
  · next heq => exact hP.same (hP.updateUserState hs' heq) rfl rfl

/-- Induction on the entries of the file. -/
theorem loadEntries (now : Int) (l : List (Option Transition)) (previous : Int) :
    P (State.loadEntries tz now l previous s).1 := by
  induction l generalizing s previous with
  | nil => exact h
  | cons e rest ih =>
      cases e with
      | none => exact h
      | some e =>
          rw [State.loadEntries]
          split
          · exact h
          · split
            · exact ih (hP.addTransition h _ _ _ _) _
            · exact ih h _

theorem loadTransitions (result : ReadResult) : P (s.loadTransitions tz result).1 := by
  cases result with
  | error => exact h
  | notFound => exact h
  | contents c =>
      cases c with
      | notAnArray => exact h
      | entries l =>
          have hs' : P { s with freezes := s.freezes + 1 } := hP.same h rfl rfl
          exact hP.same (hP.loadEntries hs' _ l 0) rfl rfl

theorem addStartup : P (s.addStartup tz) := by
  rw [State.addStartup]
  split
  · exact hP.addTransition h _ _ _ _
  · exact h

theorem startLoad (c : Nat) (result : ReadResult) (listens : Bool) :
    P (s.startLoad tz c result listens) := by
  have hloaded := hP.addStartup (hP.loadTransitions h result)
  refine hP.ensureInhibitor ?_ _
  cases listens <;> exact hP.same hloaded rfl rfl

theorem startLoginUser (c : Nat) (proxy : Option Nat) :
    P (s.startLoginUser tz c proxy) := by
  have hs' : P (s.listenToUser proxy) := hP.same h rfl rfl
  rw [State.startLoginUser]
  split
  · exact hs'
  · next heq => exact hP.same (hP.updateUserState hs' heq) rfl rfl

theorem stopStateMachine : P (s.stopStateMachine tz) := by
  have hdisconnect : P s.disconnect := hP.congr h rfl List.filter_sublist.subset
  rw [State.stopStateMachine]
  split
  · have hs' : P (s.disconnect.addShutdown tz) := by
      rw [State.addShutdown]
      split
      · exact hP.addTransition hdisconnect _ _ _ _
      · exact hdisconnect
    exact hP.same hs' rfl rfl
  · exact hP.same hdisconnect rfl rfl

theorem updateSettings : P (s.updateSettings tz) := by
  rw [State.updateSettings]
  split
  · split
    · exact hP.stopStateMachine h
    · exact h
  · split
    · exact hP.same h rfl rfl
    · exact hP.updateState h

theorem onTimeChange : P (s.onTimeChange tz) := by
  rw [State.onTimeChange]
  split
  · exact h
  · exact hP.updateState (hP.same h rfl rfl)

theorem completeFile (c : Option Nat) (op : FileOp) (ok : Bool) :
    P (s.completeFile c op ok) := by
  unfold State.completeFile
  split
  · exact h
  · split <;> exact hP.same h rfl rfl

theorem resume (t : Thread) (answer : Option Nat) : P (s.resume tz t answer) := by
  cases t with
  | startRead c => exact hP.same h rfl rfl
  | startLoad c result => exact hP.startLoad h c result _
  | inhibit start c =>
      have htaken := hP.takeInhibitor h c answer.isSome
      cases start with
      | none => exact htaken
      | some c' => exact hP.same htaken rfl rfl
  | startInhibited c =>
      show P (s.startInhibited c)
      rw [State.startInhibited]
      split
      · exact hP.same h rfl rfl
      · exact h
  | startLoginUser c => exact hP.startLoginUser h c answer
  | startUpdate c => exact hP.same (hP.updateState h) rfl rfl
  | stopFile c op => exact hP.same (hP.completeFile h c op answer.isSome) rfl rfl
  | stopTail own => exact hP.same h rfl rfl
  | storeFile c op preparing =>
      have hcompleted := hP.completeFile h c op answer.isSome
      cases preparing with
      | none => exact hcompleted
      | some preparing => exact hP.same hcompleted rfl rfl
  | sleepUpdated preparing =>
      cases preparing with
      | false => exact h
      | true => exact hP.same h rfl rfl

end

omit hP in
theorem iterate {f : State → State} (hf : ∀ s : State, P s → P (f s)) (n : Nat) (h : P s) :
    P (Nat.iterate f n s) := by
  induction n generalizing s with
  | zero => exact h
  | succ n ih => exact ih (hf s h)

/-- **The step lemma.** -/
theorem step {e : Event} {s' : State} (h : P s) (hstep : s.step tz e = some s') : P s' := by
  cases e with
  | changeSettings settings =>
      cases hstep
      exact hP.updateSettings (hP.same h rfl rfl)
  | shutdown =>
      cases hstep
      exact hP.stopStateMachine h
  | pass secs | sleep secs | setClock secs =>
      cases hstep
      exact hP.same h rfl rfl
  | timeChange source =>
      obtain ⟨-, heq⟩ := Option.ite_none_right_eq_some.mp hstep
      cases heq
      exact hP.onTimeChange h
  | timer id =>
      obtain ⟨-, heq⟩ := Option.ite_none_right_eq_some.mp hstep
      cases heq
      exact hP.updateState (hP.congr h rfl List.filter_sublist.subset)
  | propertiesChanged active idleHint =>
      cases hstep
      have hs' : P { s with login := { s.login with active, idleHint } } := hP.same h rfl rfl
      exact iterate (P := P) (fun _ => hP.onPropertiesChanged) s.userHandlers.length hs'
  | prepareForSleep preparing =>
      cases hstep
      have hs' : P { s with login := { s.login with preparingForSleep := preparing } } :=
        hP.same h rfl rfl
      exact iterate (P := P) (fun _ hs => hP.onPrepareForSleep hs preparing) s.sleepHandlers hs'
  | resume i answer =>
      obtain ⟨p, -, heq⟩ := Option.map_eq_some_iff.mp hstep
      cases heq
      have hs' : P { s with threads := p.2 } := hP.same h rfl rfl
      exact hP.resume hs' p.1 answer

/-- **The run lemma.** -/
theorem of_reachable {settings : Settings} {clock : Clock} {login : Login} {file : Option Contents}
    (hinit : P (.init settings clock login file))
    (hreach : Runs.Reachable (State.step tz) (start tz settings clock login file) s) : P s :=
  hreach.invariant (hP.updateSettings hinit) fun _ _ _ h _ hstep => hP.step h hstep

end KeptByUpdates

end TimeLimitsManager.State
