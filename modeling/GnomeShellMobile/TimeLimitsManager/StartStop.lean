import GnomeShellMobile.Runs.Basic
import GnomeShellMobile.TimeLimitsManager.LimitState

/-!
# TimeLimitsManager — starting and stopping

A start and a stop await several things and share the fields of the object. A start that a stop
has overtaken goes on all the same: it connects handlers nobody will disconnect, or brings the
state back. The end of a stop cancels whatever cancellable there is then. This module says in
which order of the answers nothing of this happens, and that then a stopped machine has let go of
everything.

* `InTurn` — the answers that come in order.
* `Tidy` — the invariant: everything that exists is referred to, and a disabled machine refers to
  nothing.
* `StopsClean` — what is claimed of a run's states.
-/

namespace TimeLimitsManager

namespace Thread

def startKey : Thread → Option Nat
  | .startRead c | .startLoad c _ | .inhibit (some c) _ | .startInhibited c
  | .startLoginUser c => some c
  | _ => none

def loadKey : Thread → Option Nat
  | .startRead c | .startLoad c _ => some c
  | _ => none

def stopKey : Thread → Option Nat
  | .stopFile c _ | .stopTail c => c
  | _ => none

def IsDelete (t : Thread) : Prop := ∃ c, t = .stopFile c .delete

instance (t : Thread) : Decidable t.IsDelete :=
  match t with
  | .stopFile c .delete => .isTrue ⟨c, rfl⟩
  | .stopFile _ (.replace _) | .startRead _ | .startLoad _ _ | .inhibit _ _ | .startInhibited _
  | .startLoginUser _ | .startUpdate _ | .stopTail _ | .storeFile _ _ _ | .sleepUpdated _ =>
      .isFalse fun ⟨_, h⟩ => nomatch h

theorem startKey_of_loadKey {t : Thread} {c : Nat} (h : t.loadKey = some c) :
    t.startKey = some c := by
  cases t <;> simp_all [loadKey, startKey]

end Thread

namespace State

variable (s : State)

/-- The machine runs for the start with cancellable `c`. -/
def Current (c : Nat) : Prop := s.state ≠ .disabled ∧ s.cancellable = some c
deriving Decidable

/-- The answer to `t` comes in order:

* a start listens to the clock and to the user only while the machine runs for it, or gets the
  proxy that is listened to already, and ends only while the machine runs;
* an inhibitor arrives only while the machine runs without one;
* the history file is deleted when a stop says so, and is written only while the machine runs or
  the file is still to be deleted;
* a stop ends before the machine is started again. -/
def InTurn (answer : Option Nat) : Thread → Prop
  | .startLoad c _ => s.Current c
  | .startLoginUser c =>
      s.Current c ∨ s.loginUser = answer ∧ (answer.isSome → s.state ≠ .disabled)
  | .startUpdate _ => s.state ≠ .disabled
  | .inhibit _ c =>
      answer.isSome → s.isCancelled c = false → s.state ≠ .disabled ∧ s.inhibitor = none
  | .stopFile _ _ => answer.isSome
  | .stopTail own => s.cancellable = own ∨ s.cancellable = none
  | .storeFile _ (.replace _) _ =>
      answer.isSome → s.state ≠ .disabled ∨ ∃ t ∈ s.threads, t.IsDelete
  | _ => True

instance (answer : Option Nat) (t : Thread) : Decidable (s.InTurn answer t) := by
  unfold InTurn
  split <;> infer_instance

def Orderly (s : State) : Event → Prop
  | .shutdown => False
  | .resume i answer => ∀ t, s.threads[i]? = some t → s.InTurn answer t
  | _ => True

instance (e : Event) : Decidable (s.Orderly e) := by
  unfold Orderly
  split <;> infer_instance

/-- No stop has cancelled the cancellable of another start than the one it ended; and when the
history was enabled, is disabled now and everything has completed, nothing is left. -/
structure StopsClean : Prop where
  cancellations : ∀ p ∈ s.cancellations, p.1 = some p.2
  stopped : s.starts ≠ [] → s.settings.historyEnabled = false → s.threads = [] →
    s.state = .disabled ∧ s.timers = [] ∧ s.timeChangeSources = [] ∧ s.sleepHandlers = 0 ∧
      s.userHandlers = [] ∧ s.inhibitors = [] ∧ s.file = none

structure Tidy : Prop where
  setting : s.settings.historyEnabled = false → s.state = .disabled
  timers : ∀ t ∈ s.timers, s.timerId = some t.1
  sources : ∀ i ∈ s.timeChangeSources, s.timeChangeId = some i
  inhibitors : ∀ i ∈ s.inhibitors, s.inhibitor = some i
  sleepHandlers : s.loginManager = false → s.sleepHandlers = 0
  userHandlers : ∀ p ∈ s.userHandlers, s.loginUser = some p
  disabled : s.state = .disabled → s.timerId = none ∧ s.timeChangeId = none ∧
    s.inhibitor = none ∧ s.loginManager = false ∧ s.loginUser = none
  startKeys : (s.threads.filterMap Thread.startKey).Nodup
  startFresh : ∀ c ∈ s.threads.filterMap Thread.startKey, c < s.nextId
  loading : ∀ t ∈ s.threads, ∀ c, t.loadKey = some c → s.Current c → s.timeChangeId = none
  starting : ∀ c ∈ s.threads.filterMap Thread.startKey, s.Current c → s.loginUser = none
  stopKeys : (s.threads.filterMap Thread.stopKey).Nodup
  stopFresh : ∀ c ∈ s.threads.filterMap Thread.stopKey, c < s.nextId
  cancelledFresh : ∀ c ∈ s.cancelled, c < s.nextId
  cancellableFresh : ∀ c, s.cancellable = some c → c < s.nextId
  stopOps : ∀ c op, .stopFile c op ∈ s.threads → op = .delete
  stopUncancelled : ∀ c op, .stopFile (some c) op ∈ s.threads → c ∉ s.cancelled
  running : s.state ≠ .disabled → ∃ c, s.cancellable = some c ∧
    c ∉ s.threads.filterMap Thread.stopKey ∧ c ∉ s.cancelled
  cancellations : ∀ p ∈ s.cancellations, p.1 = some p.2
  file : s.state = .disabled → s.starts ≠ [] → s.file = none ∨ ∃ t ∈ s.threads, t.IsDelete

variable {s} {tz : LocalTime}

/-! ## Updates of other fields -/

def view (s : State) :=
  (s.settings.historyEnabled, s.file, s.state, s.cancellable, s.loginManager, s.inhibitor,
    s.loginUser, s.timerId, s.timeChangeId, s.timers, s.timeChangeSources, s.inhibitors,
    s.sleepHandlers, s.userHandlers, s.threads, s.cancelled, s.nextId, s.starts, s.cancellations)

theorem Tidy.congr {s' : State} (h : s.Tidy) (hv : s'.view = s.view) : s'.Tidy := by
  simp only [view, Prod.mk.injEq] at hv
  obtain ⟨h1, h2, h3, h4, h5, h6, h7, h8, h9, h10, h11, h12, h13, h14, h15, h16, h17, h18, h19⟩ := hv
  obtain ⟨setting, timers, sources, inhibitors, sleepHandlers, userHandlers, disabled, startKeys,
    startFresh, loading, starting, stopKeys, stopFresh, cancelledFresh, cancellableFresh, stopOps,
    stopUncancelled, running, cancellations, file⟩ := h
  constructor <;> simp only [Current, h1, h2, h3, h4, h5, h6, h7, h8, h9, h10, h11, h12, h13, h14,
    h15, h16, h17, h18, h19] <;> assumption

theorem nextState_ne_disabled (h : s.state ≠ .disabled) : s.nextState tz ≠ .disabled := by
  rw [nextState]
  split
  · decide
  · split
    · decide
    · exact h

namespace Tidy

variable {c : Nat} {t : Thread} {i : Nat} {rest : List Thread}

section

variable (h : s.Tidy)
include h

theorem scheduleUpdateState (hs : s.state ≠ .disabled) (timeout : Int) :
    (s.scheduleUpdateState timeout).Tidy :=
  { h with
    timers := fun t ht => by
      rcases List.mem_cons.mp ht with rfl | ht
      · rfl
      · obtain ⟨ht, hne⟩ := List.mem_filter.mp ht
        exact absurd (h.timers t ht).symm (of_decide_eq_true hne)
    disabled := fun hd => absurd hd hs
    startFresh := fun c hc => Nat.lt_succ_of_lt (h.startFresh c hc)
    stopFresh := fun c hc => Nat.lt_succ_of_lt (h.stopFresh c hc)
    cancelledFresh := fun c hc => Nat.lt_succ_of_lt (h.cancelledFresh c hc)
    cancellableFresh := fun c hc => Nat.lt_succ_of_lt (h.cancellableFresh c hc) }

theorem saveState {n : TimeLimitsState} (hs : s.state ≠ .disabled)
    (hn : n ≠ .disabled) : (s.saveState n).Tidy := by
  rw [State.saveState]
  split
  · exact { h with
      setting := fun hset => absurd (h.setting hset) hs
      disabled := fun hd => absurd hd hn
      loading := fun t ht c hc hcur => h.loading t ht c hc ⟨hs, hcur.2⟩
      starting := fun c hc hcur => h.starting c hc ⟨hs, hcur.2⟩
      running := fun _ => h.running hs
      file := fun hd => absurd hd hn }
  · exact h

theorem updateState (hs : s.state ≠ .disabled) : (s.updateState tz).Tidy := by
  obtain ⟨scheduled, hscheduled, heq⟩ := s.updateState_cases tz
  rw [heq]
  have hn : s.nextState tz ≠ .disabled := nextState_ne_disabled hs
  rcases hscheduled with rfl | ⟨t, rfl⟩
  · exact (h.saveState hs hn).congr rfl
  · exact ((h.scheduleUpdateState hs t).saveState hs hn).congr rfl

theorem addTransition (oldState newState : UserState) (t : Int)
    (recalculate : Bool) : (s.addTransition tz oldState newState t recalculate).Tidy := by
  have hs' : (s.recordTransition oldState newState t).Tidy := h.congr rfl
  rw [State.addTransition]
  split
  · next hc => exact hs'.updateState hc.2
  · exact hs'

theorem push (hstart : t.startKey = none) (hstop : t.stopKey = none)
    (hop : ∀ c op, t ≠ .stopFile c op) : (s.push t).Tidy :=
  have hstarts : (s.push t).threads.filterMap Thread.startKey =
      s.threads.filterMap Thread.startKey := List.filterMap_cons_none hstart
  have hstops : (s.push t).threads.filterMap Thread.stopKey =
      s.threads.filterMap Thread.stopKey := List.filterMap_cons_none hstop
  { h with
    startKeys := hstarts ▸ h.startKeys
    startFresh := hstarts ▸ h.startFresh
    starting := hstarts ▸ h.starting
    loading := fun u hu c hc hcur => by
      rcases List.mem_cons.mp hu with rfl | hu
      · rw [Thread.startKey_of_loadKey hc] at hstart
        cases hstart
      · exact h.loading u hu c hc hcur
    stopKeys := hstops ▸ h.stopKeys
    stopFresh := hstops ▸ h.stopFresh
    stopOps := fun c op hmem =>
      h.stopOps c op ((List.mem_cons.mp hmem).resolve_left fun heq => hop c op heq.symm)
    stopUncancelled := fun c op hmem =>
      h.stopUncancelled c op ((List.mem_cons.mp hmem).resolve_left fun heq => hop _ op heq.symm)
    running := hstops ▸ h.running
    file := fun hd hst =>
      (h.file hd hst).imp_right fun ⟨u, hu, hdel⟩ => ⟨u, List.mem_cons_of_mem _ hu, hdel⟩ }

theorem storeTransitions (preparing : Option Bool) :
    (s.storeTransitions preparing).Tidy :=
  have hclean : s.cleanTransitions.Tidy := h.congr rfl
  hclean.push rfl rfl (fun _ _ => by simp)

theorem updateUserState {s' : State} {store : Bool}
    (heq : s.updateUserState tz = some (s', store)) : s'.Tidy := by
  obtain ⟨newState, -, hpair⟩ := Option.map_eq_some_iff.mp heq
  split at hpair
  · cases hpair
    exact h
  · cases hpair
    exact h.addTransition _ _ _ _

theorem onPropertiesChanged : (s.onPropertiesChanged tz).Tidy := by
  rw [State.onPropertiesChanged]
  split
  · exact h
  · next heq => exact h.updateUserState heq
  · next heq => exact (h.updateUserState heq).storeTransitions none

variable (preparing : Bool)

theorem comeBack : (s.comeBack preparing).Tidy := by
  cases preparing with
  | true => exact h
  | false =>
      have hensure : (s.ensureInhibitor none).Tidy := by
        unfold State.ensureInhibitor
        split
        · exact h
        · split
          · exact h.push rfl rfl (fun _ _ => by simp)
          · exact h
      exact hensure.congr rfl

theorem onPrepareForSleep :
    (s.onPrepareForSleep tz preparing).Tidy := by
  have hs' := h.comeBack preparing
  rw [State.onPrepareForSleep]
  split
  · exact hs'.push rfl rfl (fun _ _ => by simp)
  · next heq => exact (hs'.updateUserState heq).push rfl rfl (fun _ _ => by simp)
  · next heq => exact (hs'.updateUserState heq).storeTransitions _

theorem releaseInhibitor : s.releaseInhibitor.Tidy :=
  { h with
    inhibitors := fun i hi => by
      obtain ⟨hi, hne⟩ := List.mem_filter.mp hi
      exact absurd (h.inhibitors i hi).symm (of_decide_eq_true hne)
    disabled := fun hd =>
      have hnone := h.disabled hd
      ⟨hnone.1, hnone.2.1, rfl, hnone.2.2.2⟩ }

theorem sleepUpdated : (s.sleepUpdated preparing).Tidy := by
  cases preparing with
  | true =>
      have hignore : { s with ignoreClockOffsetChanges := true }.Tidy := h.congr rfl
      exact hignore.releaseInhibitor
  | false => exact h

end

/-! ## Starting and stopping -/

theorem pushStart (h : s.Tidy) (hkey : t.startKey = some c)
    (hstop : t.stopKey = none) (hop : ∀ c op, t ≠ .stopFile c op) (hfresh : c < s.nextId)
    (hnew : c ∉ s.threads.filterMap Thread.startKey)
    (hload : t.loadKey.isSome → s.Current c → s.timeChangeId = none)
    (hstart : s.Current c → s.loginUser = none) : (s.push t).Tidy :=
  have hstarts : (s.push t).threads.filterMap Thread.startKey =
      c :: s.threads.filterMap Thread.startKey := List.filterMap_cons_some hkey
  have hstops : (s.push t).threads.filterMap Thread.stopKey =
      s.threads.filterMap Thread.stopKey := List.filterMap_cons_none hstop
  { h with
    startKeys := hstarts ▸ List.nodup_cons.mpr ⟨hnew, h.startKeys⟩
    startFresh := hstarts ▸ List.forall_mem_cons.mpr ⟨hfresh, h.startFresh⟩
    starting := hstarts ▸ List.forall_mem_cons.mpr ⟨hstart, h.starting⟩
    loading := fun u hu d hd hcur => by
      rcases List.mem_cons.mp hu with rfl | hu
      · have hcd : c = d := Option.some.inj (hkey.symm.trans (Thread.startKey_of_loadKey hd))
        exact hload (by simp [hd]) (hcd ▸ hcur)
      · exact h.loading u hu d hd hcur
    stopKeys := hstops ▸ h.stopKeys
    stopFresh := hstops ▸ h.stopFresh
    stopOps := fun c op hmem =>
      h.stopOps c op ((List.mem_cons.mp hmem).resolve_left fun heq => hop c op heq.symm)
    stopUncancelled := fun c op hmem =>
      h.stopUncancelled c op ((List.mem_cons.mp hmem).resolve_left fun heq => hop _ op heq.symm)
    running := hstops ▸ h.running
    file := fun hd hst =>
      (h.file hd hst).imp_right fun ⟨u, hu, hdel⟩ => ⟨u, List.mem_cons_of_mem _ hu, hdel⟩ }

theorem startStateMachine (h : s.Tidy) (hs : s.state = .disabled) {settings : Settings}
    (hset : settings.historyEnabled = true) : { s with settings }.startStateMachine.Tidy := by
  have hnone := h.disabled hs
  have hnew : s.nextId ∉ s.threads.filterMap Thread.startKey := fun hmem =>
    absurd (h.startFresh _ hmem) (Nat.lt_irrefl _)
  exact {
    __ := h
    setting := fun hoff => by
      rw [show settings.historyEnabled = false from hoff] at hset
      cases hset
    disabled := fun hd => nomatch hd
    startKeys := List.nodup_cons.mpr ⟨hnew, h.startKeys⟩
    startFresh := List.forall_mem_cons.mpr
      ⟨Nat.lt_succ_self _, fun c hc => Nat.lt_succ_of_lt (h.startFresh c hc)⟩
    loading := fun _ _ _ _ _ => hnone.2.1
    starting := fun _ _ _ => hnone.2.2.2.2
    stopFresh := fun c hc => Nat.lt_succ_of_lt (h.stopFresh c hc)
    cancelledFresh := fun c hc => Nat.lt_succ_of_lt (h.cancelledFresh c hc)
    cancellableFresh := fun c hc => Option.some.inj hc ▸ Nat.lt_succ_self _
    stopOps := fun c op hmem => h.stopOps c op ((List.mem_cons.mp hmem).resolve_left (by simp))
    stopUncancelled := fun c op hmem =>
      h.stopUncancelled c op ((List.mem_cons.mp hmem).resolve_left (by simp))
    running := fun _ => ⟨s.nextId, rfl, fun hmem => absurd (h.stopFresh _ hmem) (Nat.lt_irrefl _),
      fun hmem => absurd (h.cancelledFresh _ hmem) (Nat.lt_irrefl _)⟩
    file := fun hd => nomatch hd }

theorem stopStateMachine (h : s.Tidy) (hs : s.state ≠ .disabled) {settings : Settings}
    (hset : settings.historyEnabled = false) : ({ s with settings }.stopStateMachine tz).Tidy := by
  obtain ⟨c, hc, hkey, hcancelled⟩ := h.running hs
  have heq : { s with settings }.stopStateMachine tz =
      { s with settings }.disconnect.push (.stopFile (some c) .delete) := by
    rw [State.stopStateMachine, if_neg (by simp [hset])]
    simp [hc]
  rw [heq]
  exact {
    __ := h
    setting := fun _ => rfl
    timers := fun t ht => by
      obtain ⟨ht, hne⟩ := List.mem_filter.mp ht
      exact absurd (h.timers t ht).symm (of_decide_eq_true hne)
    sources := fun i hi => by
      obtain ⟨hi, hne⟩ := List.mem_filter.mp hi
      exact absurd (h.sources i hi).symm (of_decide_eq_true hne)
    inhibitors := fun i hi => by
      obtain ⟨hi, hne⟩ := List.mem_filter.mp hi
      exact absurd (h.inhibitors i hi).symm (of_decide_eq_true hne)
    sleepHandlers := fun _ => by
      change (if s.loginManager then 0 else s.sleepHandlers) = 0
      split
      · rfl
      · next hlm => exact h.sleepHandlers (Bool.eq_false_iff.mpr hlm)
    userHandlers := fun p hp => by
      obtain ⟨hp, hne⟩ := List.mem_filter.mp hp
      exact absurd (h.userHandlers p hp).symm (of_decide_eq_true hne)
    disabled := fun _ => ⟨rfl, rfl, rfl, rfl, rfl⟩
    loading := fun _ _ _ _ hcur => absurd rfl hcur.1
    starting := fun _ _ hcur => absurd rfl hcur.1
    stopKeys := List.nodup_cons.mpr ⟨hkey, h.stopKeys⟩
    stopFresh := List.forall_mem_cons.mpr ⟨h.cancellableFresh c hc, h.stopFresh⟩
    stopOps := fun d op hmem => by
      rcases List.mem_cons.mp hmem with heq | hmem
      · cases heq
        rfl
      · exact h.stopOps d op hmem
    stopUncancelled := fun d op hmem => by
      rcases List.mem_cons.mp hmem with heq | hmem
      · cases heq
        exact hcancelled
      · exact h.stopUncancelled d op hmem
    running := fun hd => absurd rfl hd
    file := fun _ _ => .inr ⟨_, List.mem_cons_self, some c, rfl⟩ }

theorem changeSettings (h : s.Tidy) (settings : Settings) :
    ({ s with settings }.updateSettings tz).Tidy := by
  rw [State.updateSettings]
  cases hset : settings.historyEnabled with
  | false =>
      by_cases hs : s.state = .disabled
      · have hs' : { s with settings }.Tidy := { h with setting := fun _ => hs }
        simpa [hset, hs] using hs'
      · have hstopped : ({ s with settings }.stopStateMachine tz).Tidy := h.stopStateMachine hs hset
        simpa [hset, hs] using hstopped
  | true =>
      by_cases hs : s.state = .disabled
      · simpa [hset, hs] using h.startStateMachine hs hset
      · have hs' : { s with settings }.Tidy := { h with setting := fun hoff => by simp_all }
        have hupdated : ({ s with settings }.updateState tz).Tidy := hs'.updateState hs
        simpa [hset, hs] using hupdated

/-! ## Answers -/

theorem takeOut (h : s.Tidy)
    (htake : Runs.take s.threads i = some (t, rest)) (hdel : t.IsDelete → s.file = none) :
    { s with threads := rest }.Tidy :=
  have hsub := Runs.take_sublist htake
  { h with
    startKeys := h.startKeys.sublist (hsub.filterMap _)
    startFresh := fun c hc => h.startFresh c ((hsub.filterMap _).subset hc)
    loading := fun u hu => h.loading u (hsub.subset hu)
    starting := fun c hc => h.starting c ((hsub.filterMap _).subset hc)
    stopKeys := h.stopKeys.sublist (hsub.filterMap _)
    stopFresh := fun c hc => h.stopFresh c ((hsub.filterMap _).subset hc)
    stopOps := fun c op hmem => h.stopOps c op (hsub.subset hmem)
    stopUncancelled := fun c op hmem => h.stopUncancelled c op (hsub.subset hmem)
    running := fun hs => by
      obtain ⟨c, hc, hkey, hcancelled⟩ := h.running hs
      exact ⟨c, hc, fun hmem => hkey ((hsub.filterMap _).subset hmem), hcancelled⟩
    file := fun hd hst => by
      rcases h.file hd hst with hnone | ⟨u, hu, hu'⟩
      · exact .inl hnone
      · rcases Runs.mem_cases_of_take htake hu with rfl | hu
        · exact .inl (hdel hu')
        · exact .inr ⟨u, hu, hu'⟩ }

theorem startKey_notMem (h : s.Tidy)
    (htake : Runs.take s.threads i = some (t, rest)) (hc : t.startKey = some c) :
    c < s.nextId ∧ c ∉ rest.filterMap Thread.startKey := by
  have hnodup := Runs.nodup_filterMap_take Thread.startKey htake h.startKeys
  rw [List.filterMap_cons_some hc] at hnodup
  refine ⟨h.startFresh c ?_, (List.nodup_cons.mp hnodup).1⟩
  exact List.mem_filterMap.mpr ⟨t, Runs.take_mem htake, hc⟩

structure Quiet (s s' : State) : Prop where
  threads : s'.threads = s.threads
  cancellable : s'.cancellable = s.cancellable
  timeChangeId : s'.timeChangeId = s.timeChangeId
  loginUser : s'.loginUser = s.loginUser
  nextId : s.nextId ≤ s'.nextId
  state : s.state ≠ .disabled → s'.state ≠ .disabled

namespace Quiet

theorem trans {s₁ s₂ s₃ : State} (h₁ : Quiet s₁ s₂) (h₂ : Quiet s₂ s₃) : Quiet s₁ s₃ where
  threads := h₂.threads.trans h₁.threads
  cancellable := h₂.cancellable.trans h₁.cancellable
  timeChangeId := h₂.timeChangeId.trans h₁.timeChangeId
  loginUser := h₂.loginUser.trans h₁.loginUser
  nextId := h₁.nextId.trans h₂.nextId
  state hs := h₂.state (h₁.state hs)

theorem refl (s : State) : Quiet s s := ⟨rfl, rfl, rfl, rfl, le_rfl, id⟩

theorem scheduleUpdateState (s : State) (t : Int) : Quiet s (s.scheduleUpdateState t) :=
  ⟨rfl, rfl, rfl, rfl, Nat.le_succ _, id⟩

theorem saveState (s : State) {n : TimeLimitsState} (hn : n ≠ .disabled) :
    Quiet s (s.saveState n) := by
  rw [State.saveState]
  split
  · exact ⟨rfl, rfl, rfl, rfl, le_rfl, fun _ => hn⟩
  · exact refl s

theorem updateState (hs : s.state ≠ .disabled) : Quiet s (s.updateState tz) := by
  obtain ⟨scheduled, hscheduled, heq⟩ := s.updateState_cases tz
  have hsched : Quiet s scheduled := by
    rcases hscheduled with rfl | ⟨t, rfl⟩
    · exact refl _
    · exact scheduleUpdateState _ _
  rw [heq]
  have hn : s.nextState tz ≠ .disabled := nextState_ne_disabled hs
  have hsaved := saveState scheduled hn
  exact hsched.trans (hsaved.trans ⟨rfl, rfl, rfl, rfl, le_rfl, id⟩)

theorem addTransition (s : State) (oldState newState : UserState) (t : Int) (recalculate : Bool) :
    Quiet s (s.addTransition tz oldState newState t recalculate) := by
  have hrecord : Quiet s (s.recordTransition oldState newState t) :=
    ⟨rfl, rfl, rfl, rfl, le_rfl, id⟩
  rw [State.addTransition]
  split
  · next hc => exact hrecord.trans (updateState hc.2)
  · exact hrecord

theorem takeInhibitor (s : State) (c : Option Nat) (ok : Bool) : Quiet s (s.takeInhibitor c ok) := by
  rw [State.takeInhibitor]
  split
  · exact refl s
  · exact ⟨rfl, rfl, rfl, rfl, Nat.le_succ _, id⟩

end Quiet

theorem takeInhibitor_state (s : State) (c : Option Nat) (ok : Bool) :
    (s.takeInhibitor c ok).state = s.state := by
  rw [State.takeInhibitor]
  split <;> rfl

theorem loadEntries_induction (tz : LocalTime) {P : State → Prop} (l : List (Option Transition)) (now : Int)
    (hkeep : ∀ s old new t recalculate, P s →
      P (State.addTransition tz s old new t recalculate)) (previous : Int) (hs : P s) :
    P (State.loadEntries tz now l previous s).1 := by
  induction l generalizing s previous with
  | nil => exact hs
  | cons e rest ih =>
      cases e with
      | none => exact hs
      | some e =>
          rw [State.loadEntries]
          split
          · exact hs
          · split
            · exact ih _ (hkeep _ _ _ _ _ hs)
            · exact ih _ hs

section

variable (h : s.Tidy)
include h

theorem loaded (tz : LocalTime) (result : ReadResult) :
    ((s.loadTransitions tz result).1.addStartup tz).Tidy ∧
      Quiet s ((s.loadTransitions tz result).1.addStartup tz) := by
  have hload : (s.loadTransitions tz result).1.Tidy ∧ Quiet s (s.loadTransitions tz result).1 := by
    cases result with
    | error => exact ⟨h, .refl s⟩
    | notFound => exact ⟨h, .refl s⟩
    | contents contents =>
        cases contents with
        | notAnArray => exact ⟨h, .refl s⟩
        | entries l =>
            have hfrozen : { s with freezes := s.freezes + 1 }.Tidy ∧
                Quiet s { s with freezes := s.freezes + 1 } :=
              ⟨h.congr rfl, rfl, rfl, rfl, rfl, le_rfl, id⟩
            obtain ⟨htidy, hquiet⟩ := loadEntries_induction tz
              (P := fun s' => s'.Tidy ∧ Quiet s s') l s.clock.realTimeSecs
              (fun s' _ _ _ _ hs' =>
                ⟨hs'.1.addTransition _ _ _ _, hs'.2.trans (.addTransition _ _ _ _ _)⟩) 0 hfrozen
            exact ⟨htidy.congr rfl, hquiet.trans ⟨rfl, rfl, rfl, rfl, le_rfl, id⟩⟩
  rw [State.addStartup]
  split
  · exact ⟨hload.1.addTransition _ _ _ _, hload.2.trans (.addTransition _ _ _ _ _)⟩
  · exact hload

theorem listenToClock (hcur : s.Current c)
    (hnew : c ∉ s.threads.filterMap Thread.startKey) (hnone : s.timeChangeId = none)
    (listens : Bool) : (s.listenToClock listens).Tidy := by
  have hsources : s.timeChangeSources = [] := by
    refine List.eq_nil_iff_forall_not_mem.mpr fun i hi => ?_
    have := h.sources i hi
    rw [hnone] at this
    cases this
  have hother {t : Thread} {d : Nat} (ht : t ∈ s.threads) (hd : t.loadKey = some d)
      (hdcur : s.Current d) : False := by
    have hcd : c = d := Option.some.inj (hcur.2.symm.trans hdcur.2)
    exact hnew (List.mem_filterMap.mpr ⟨t, ht, hcd ▸ Thread.startKey_of_loadKey hd⟩)
  cases listens with
  | false =>
      exact { h with
        sources := fun i hi => absurd (hsources ▸ hi) List.not_mem_nil
        disabled := fun hd => absurd hd hcur.1
        loading := fun _ _ _ _ _ => rfl }
  | true =>
      exact { h with
        sources := fun i hi => by
          change i ∈ s.nextId :: s.timeChangeSources at hi
          rw [hsources] at hi
          rw [List.mem_singleton.mp hi]
          rfl
        disabled := fun hd => absurd hd hcur.1
        startFresh := fun c hc => Nat.lt_succ_of_lt (h.startFresh c hc)
        loading := fun t ht d hd hdcur => (hother ht hd hdcur).elim
        stopFresh := fun c hc => Nat.lt_succ_of_lt (h.stopFresh c hc)
        cancelledFresh := fun c hc => Nat.lt_succ_of_lt (h.cancelledFresh c hc)
        cancellableFresh := fun c hc => Nat.lt_succ_of_lt (h.cancellableFresh c hc) }

theorem ensureInhibitor (hfresh : c < s.nextId)
    (hnew : c ∉ s.threads.filterMap Thread.startKey) (hnone : s.Current c → s.loginUser = none) :
    (s.ensureInhibitor (some c)).Tidy := by
  unfold State.ensureInhibitor
  split
  · exact h.pushStart rfl rfl (fun _ _ => by simp) hfresh hnew (fun hl => nomatch hl) hnone
  · split
    · exact h.pushStart rfl rfl (fun _ _ => by simp) hfresh hnew (fun hl => nomatch hl) hnone
    · exact h

theorem startLoad (hcur : s.Current c) (hfresh : c < s.nextId)
    (hnew : c ∉ s.threads.filterMap Thread.startKey) (hclock : s.timeChangeId = none)
    (huser : s.loginUser = none) (result : ReadResult) (listens : Bool) :
    (s.startLoad tz c result listens).Tidy := by
  obtain ⟨hloaded, hquiet⟩ := h.loaded tz result
  rw [State.startLoad]
  generalize (s.loadTransitions tz result).1.addStartup tz = s' at hloaded hquiet
  have hcur' : s'.Current c := ⟨hquiet.state hcur.1, hquiet.cancellable.trans hcur.2⟩
  have hlistens := hloaded.listenToClock hcur' (hquiet.threads ▸ hnew)
    (hquiet.timeChangeId.trans hclock) listens
  have hmanager : { s'.listenToClock listens with loginManager := true }.Tidy :=
    { hlistens with
      sleepHandlers := fun hd => nomatch hd
      disabled := fun hd => by cases listens <;> exact absurd hd hcur'.1 }
  refine hmanager.ensureInhibitor ?_ ?_ fun _ => ?_
  · have := hfresh.trans_le hquiet.nextId
    cases listens
    · exact this
    · exact Nat.lt_succ_of_lt this
  · cases listens <;> exact hquiet.threads ▸ hnew
  · cases listens <;> exact hquiet.loginUser.trans huser

theorem startInhibited (hfresh : c < s.nextId)
    (hnew : c ∉ s.threads.filterMap Thread.startKey)
    (huser : s.Current c → s.loginUser = none) : (s.startInhibited c).Tidy := by
  rw [State.startInhibited]
  split
  · next hlm =>
      have hconnected : { s with sleepHandlers := s.sleepHandlers + 1 }.Tidy :=
        { h with sleepHandlers := fun hd => by simp_all }
      exact hconnected.pushStart rfl rfl (fun _ _ => by simp) hfresh hnew (fun hl => by cases hl)
        huser
  · exact h

theorem listenToUser {proxy : Option Nat}
    (hturn : s.Current c ∨ s.loginUser = proxy ∧ (proxy.isSome → s.state ≠ .disabled))
    (hnew : c ∉ s.threads.filterMap Thread.startKey) (huser : s.Current c → s.loginUser = none) :
    (s.listenToUser proxy).Tidy := by
  have hmem {p : Nat} (hp : p ∈ (s.listenToUser proxy).userHandlers) :
      proxy = some p ∨ p ∈ s.userHandlers :=
    (List.mem_append.mp hp).imp_left Option.mem_toList.mp
  rcases hturn with hcur | ⟨rfl, hstate⟩
  · exact { h with
      userHandlers := fun p hp => by
        refine (hmem hp).resolve_right fun hp => ?_
        have := h.userHandlers p hp
        rw [huser hcur] at this
        cases this
      disabled := fun hd => absurd hd hcur.1
      starting := fun d hd hdcur => by
        have hcd : c = d := Option.some.inj (hcur.2.symm.trans hdcur.2)
        exact absurd (hcd ▸ hd) hnew }
  · exact { h with userHandlers := fun p hp => (hmem hp).elim id (h.userHandlers p) }

theorem startLoginUser {proxy : Option Nat}
    (hturn : s.Current c ∨ s.loginUser = proxy ∧ (proxy.isSome → s.state ≠ .disabled))
    (hnew : c ∉ s.threads.filterMap Thread.startKey) (huser : s.Current c → s.loginUser = none) :
    (s.startLoginUser tz c proxy).Tidy := by
  have hlisten := h.listenToUser hturn hnew huser
  rw [State.startLoginUser]
  split
  · exact hlisten
  · next heq => exact (hlisten.updateUserState heq).push rfl rfl (fun _ _ => by simp)

theorem takeInhibitor {c : Option Nat} {ok : Bool}
    (hturn : ok = true → s.isCancelled c = false → s.state ≠ .disabled ∧ s.inhibitor = none) :
    (s.takeInhibitor c ok).Tidy := by
  rw [State.takeInhibitor]
  split
  · exact h
  · next hc =>
      simp only [Bool.or_eq_true, Bool.not_eq_true', not_or, Bool.not_eq_false,
        Bool.not_eq_true] at hc
      obtain ⟨hstate, hnone⟩ := hturn hc.1 hc.2
      exact { h with
        inhibitors := fun i hi => by
          rcases List.mem_cons.mp hi with rfl | hi
          · rfl
          · have := h.inhibitors i hi
            rw [hnone] at this
            cases this
        disabled := fun hd => absurd hd hstate
        startFresh := fun c hc => Nat.lt_succ_of_lt (h.startFresh c hc)
        stopFresh := fun c hc => Nat.lt_succ_of_lt (h.stopFresh c hc)
        cancelledFresh := fun c hc => Nat.lt_succ_of_lt (h.cancelledFresh c hc)
        cancellableFresh := fun c hc => Nat.lt_succ_of_lt (h.cancellableFresh c hc) }

theorem setFile (file : Option Contents)
    (hfile : file = none ∨ s.state ≠ .disabled ∨ ∃ t ∈ s.threads, t.IsDelete) :
    { s with file }.Tidy :=
  { h with
    file := fun hd _ => hfile.imp_right fun hor => hor.resolve_left fun hs => hs hd }

theorem stopKey_notMem
    (htake : Runs.take s.threads i = some (t, rest)) (hc : t.stopKey = some c) :
    c < s.nextId ∧ c ∉ rest.filterMap Thread.stopKey ∧
      (s.cancellable = some c → s.state = .disabled) := by
  have hnodup := Runs.nodup_filterMap_take Thread.stopKey htake h.stopKeys
  rw [List.filterMap_cons_some hc] at hnodup
  have hmem : c ∈ s.threads.filterMap Thread.stopKey :=
    List.mem_filterMap.mpr ⟨t, Runs.take_mem htake, hc⟩
  refine ⟨h.stopFresh c hmem, (List.nodup_cons.mp hnodup).1, fun hcur => ?_⟩
  by_contra hs
  obtain ⟨d, hd, hkey, -⟩ := h.running hs
  exact hkey (Option.some.inj (hcur.symm.trans hd) ▸ hmem)

theorem pushStopTail {own : Option Nat}
    (hown : ∀ c, own = some c → c < s.nextId ∧ c ∉ s.threads.filterMap Thread.stopKey ∧
      (s.cancellable = some c → s.state = .disabled)) : (s.push (.stopTail own)).Tidy := by
  cases own with
  | none => exact h.push rfl rfl (fun _ _ => by simp)
  | some c =>
      obtain ⟨hfresh, hnew, hcur⟩ := hown c rfl
      exact { h with
        loading := fun u hu d hd hdcur => by
          rcases List.mem_cons.mp hu with rfl | hu
          · cases hd
          · exact h.loading u hu d hd hdcur
        stopKeys := List.nodup_cons.mpr ⟨hnew, h.stopKeys⟩
        stopFresh := List.forall_mem_cons.mpr ⟨hfresh, h.stopFresh⟩
        stopOps := fun d op hmem => h.stopOps d op ((List.mem_cons.mp hmem).resolve_left (by simp))
        stopUncancelled := fun d op hmem =>
          h.stopUncancelled d op ((List.mem_cons.mp hmem).resolve_left (by simp))
        running := fun hs => by
          obtain ⟨d, hd, hkey, hcancelled⟩ := h.running hs
          refine ⟨d, hd, fun hmem => ?_, hcancelled⟩
          rcases List.mem_cons.mp hmem with rfl | hmem
          · exact hs (hcur hd)
          · exact hkey hmem
        file := fun hd hst =>
          (h.file hd hst).imp_right fun ⟨u, hu, hdel⟩ => ⟨u, List.mem_cons_of_mem _ hu, hdel⟩ }

theorem stopTail {own : Option Nat}
    (hturn : s.cancellable = own ∨ s.cancellable = none)
    (hown : ∀ c, own = some c → c < s.nextId ∧ c ∉ s.threads.filterMap Thread.stopKey ∧
      (s.cancellable = some c → s.state = .disabled)) : (s.stopTail own).Tidy := by
  cases hc : s.cancellable with
  | none =>
      refine h.congr ?_
      simp [State.stopTail, view, hc]
  | some c =>
      obtain rfl : own = some c := by simpa [hc, eq_comm] using hturn
      obtain ⟨hfresh, hnew, hcur⟩ := hown c rfl
      have hdisabled := hcur hc
      have htail : s.stopTail (some c) = { s with
          cancelled := c :: s.cancelled
          cancellations := (some c, c) :: s.cancellations
          cancellable := none } := by
        simp [State.stopTail, hc]
      rw [htail]
      exact { h with
        loading := fun _ _ _ _ hcur => absurd hdisabled hcur.1
        starting := fun _ _ hcur => absurd hdisabled hcur.1
        cancelledFresh := List.forall_mem_cons.mpr ⟨hfresh, h.cancelledFresh⟩
        cancellableFresh := fun _ hd => nomatch hd
        stopUncancelled := fun d op hmem hd => by
          rcases List.mem_cons.mp hd with rfl | hd
          · exact hnew (List.mem_filterMap.mpr ⟨_, hmem, rfl⟩)
          · exact h.stopUncancelled d op hmem hd
        running := fun hs => absurd hdisabled hs
        cancellations := List.forall_mem_cons.mpr ⟨rfl, h.cancellations⟩ }

end

theorem stopFile {c : Option Nat} {op : FileOp} {ok : Bool}
    (h : s.Tidy) (htake : Runs.take s.threads i = some (.stopFile c op, rest)) (hok : ok = true) :
    (({ s with threads := rest }.completeFile c op ok).push (.stopTail c)).Tidy := by
  have hmem := Runs.take_mem htake
  obtain rfl := h.stopOps c op hmem
  have hcancelled : s.isCancelled c = false := by
    cases c with
    | none => rfl
    | some c => simpa [isCancelled] using h.stopUncancelled c _ hmem
  have hcomplete : { s with threads := rest }.completeFile c .delete ok =
      { s with threads := rest, file := none } := by
    have hcancelled' : { s with threads := rest }.isCancelled c = false := hcancelled
    simp [completeFile, hok, hcancelled']
  rw [hcomplete]
  have hgone : { s with threads := rest, file := none }.Tidy :=
    (h.setFile none (.inl rfl)).takeOut htake fun _ => rfl
  exact hgone.pushStopTail fun d hd => h.stopKey_notMem htake hd

theorem storeFile {c : Option Nat} {op : FileOp}
    {preparing : Option Bool} {answer : Option Nat} (h : s.Tidy)
    (htake : Runs.take s.threads i = some (.storeFile c op preparing, rest))
    (hturn : s.InTurn answer (.storeFile c op preparing)) :
    ({ s with threads := rest }.completeFile c op answer.isSome).Tidy := by
  have hnot : ¬ (Thread.storeFile c op preparing).IsDelete := fun ⟨_, h⟩ => nomatch h
  have hrest := h.takeOut htake fun hdel => absurd hdel hnot
  unfold completeFile
  split
  · exact hrest
  · next hc =>
      cases op with
      | delete => exact hrest.setFile none (.inl rfl)
      | replace l =>
          refine hrest.setFile _ (.inr ?_)
          simp only [Bool.or_eq_true, Bool.not_eq_true', not_or, Bool.not_eq_false] at hc
          refine (hturn hc.1).imp_right fun ⟨u, hu, hdel⟩ => ?_
          rcases Runs.mem_cases_of_take htake hu with rfl | hu
          · exact absurd hdel hnot
          · exact ⟨u, hu, hdel⟩

theorem resume {answer : Option Nat} (h : s.Tidy)
    (htake : Runs.take s.threads i = some (t, rest)) (hturn : s.InTurn answer t) :
    ({ s with threads := rest }.resume tz t answer).Tidy := by
  have hstart {c : Nat} (hc : t.startKey = some c) := h.startKey_notMem htake hc
  have huser {c : Nat} (hc : t.startKey = some c) : s.Current c → s.loginUser = none :=
    h.starting c (List.mem_filterMap.mpr ⟨t, Runs.take_mem htake, hc⟩)
  have hclock {c : Nat} (hc : t.loadKey = some c) : s.Current c → s.timeChangeId = none :=
    h.loading t (Runs.take_mem htake) c hc
  have hrest (hdel : ¬ t.IsDelete) := h.takeOut htake fun hd => absurd hd hdel
  cases t with
  | startRead c =>
      exact (hrest fun ⟨_, h⟩ => nomatch h).pushStart rfl rfl (fun _ _ => by simp) (hstart rfl).1
        (hstart rfl).2 (fun _ => hclock rfl) (huser rfl)
  | startLoad c result =>
      exact (hrest fun ⟨_, h⟩ => nomatch h).startLoad hturn (hstart rfl).1 (hstart rfl).2
        (hclock rfl hturn) (huser rfl hturn) result _
  | inhibit start c =>
      have htaken : ({ s with threads := rest }.takeInhibitor c answer.isSome).Tidy :=
        (hrest fun ⟨_, h⟩ => nomatch h).takeInhibitor hturn
      cases start with
      | none => exact htaken
      | some c' =>
          have hquiet : Quiet { s with threads := rest } _ := .takeInhibitor _ c answer.isSome
          refine htaken.pushStart rfl rfl (fun _ _ => by simp) ?_ ?_ (fun hl => nomatch hl) ?_
          · exact (hstart rfl).1.trans_le hquiet.nextId
          · exact hquiet.threads ▸ (hstart rfl).2
          · intro hcur
            have hstate := takeInhibitor_state { s with threads := rest } c answer.isSome
            exact hquiet.loginUser.trans
              (huser rfl ⟨hstate ▸ hcur.1, hquiet.cancellable.symm.trans hcur.2⟩)
  | startInhibited c =>
      exact (hrest fun ⟨_, h⟩ => nomatch h).startInhibited (hstart rfl).1 (hstart rfl).2 (huser rfl)
  | startLoginUser c =>
      exact (hrest fun ⟨_, h⟩ => nomatch h).startLoginUser hturn (hstart rfl).2 (huser rfl)
  | startUpdate c =>
      exact ((hrest fun ⟨_, h⟩ => nomatch h).updateState hturn).congr rfl
  | stopFile c op => exact h.stopFile htake hturn
  | stopTail own =>
      exact (hrest fun ⟨_, h⟩ => nomatch h).stopTail hturn fun d hd => h.stopKey_notMem htake hd
  | storeFile c op preparing =>
      cases preparing with
      | none => exact h.storeFile htake hturn
      | some p => exact (h.storeFile htake hturn).push rfl rfl (fun _ _ => by simp)
  | sleepUpdated preparing => exact (hrest fun ⟨_, h⟩ => nomatch h).sleepUpdated preparing

/-! ## Runs -/

theorem iterate {f : State → State} (hf : ∀ s : State, s.Tidy → (f s).Tidy) (n : Nat)
    (h : s.Tidy) : (Nat.iterate f n s).Tidy := by
  induction n generalizing s with
  | zero => exact h
  | succ n ih => exact ih (hf s h)

theorem onTimer {id : Nat} (h : s.Tidy) (hid : id ∈ s.timers.map Prod.fst) :
    (s.onTimer tz id).Tidy := by
  obtain ⟨t, ht, rfl⟩ := List.mem_map.mp hid
  have htimer := h.timers t ht
  have hstate : s.state ≠ .disabled := fun hd => by
    rw [(h.disabled hd).1] at htimer
    cases htimer
  have hfired : { s with timers := s.timers.filter fun u => u.1 ≠ t.1, timerId := none }.Tidy :=
    { h with
      timers := fun u hu => by
        obtain ⟨hu, hne⟩ := List.mem_filter.mp hu
        have heq := Option.some.inj ((h.timers u hu).symm.trans htimer)
        exact absurd heq (of_decide_eq_true hne)
      disabled := fun hd => absurd hd hstate }
  exact hfired.updateState hstate

theorem onTimeChange {source : Nat} (h : s.Tidy) (hsource : source ∈ s.timeChangeSources) :
    (s.onTimeChange tz).Tidy := by
  have hid := h.sources source hsource
  have hstate : s.state ≠ .disabled := fun hd => by
    rw [(h.disabled hd).2.1] at hid
    cases hid
  rw [State.onTimeChange]
  split
  · exact h
  · refine updateState ?_ hstate
    refine storeTransitions ?_ none
    exact h.congr rfl

theorem step {e : Event} {s' : State} (h : s.Tidy) (hok : s.Orderly e)
    (hstep : s.step tz e = some s') : s'.Tidy := by
  cases e with
  | changeSettings settings =>
      cases hstep
      exact h.changeSettings settings
  | shutdown => exact hok.elim
  | pass secs | sleep secs | setClock secs =>
      cases hstep
      exact h.congr rfl
  | timeChange source =>
      obtain ⟨hsource, heq⟩ := Option.ite_none_right_eq_some.mp hstep
      cases heq
      exact h.onTimeChange hsource
  | timer id =>
      obtain ⟨hid, heq⟩ := Option.ite_none_right_eq_some.mp hstep
      cases heq
      exact h.onTimer hid
  | propertiesChanged active idleHint =>
      cases hstep
      exact iterate (fun _ => onPropertiesChanged) _ (h.congr rfl)
  | prepareForSleep preparing =>
      cases hstep
      exact iterate (fun _ hs => hs.onPrepareForSleep preparing) _ (h.congr rfl)
  | resume i answer =>
      obtain ⟨⟨t, rest⟩, htake, heq⟩ := Option.map_eq_some_iff.mp hstep
      cases heq
      exact h.resume htake (hok t (Runs.getElem?_of_take htake))

theorem stopsClean (h : s.Tidy) : s.StopsClean where
  cancellations := h.cancellations
  stopped := by
    intro hstarted hoff hthreads
    have hstate := h.setting hoff
    obtain ⟨htimer, hclock, hinhibitor, hmanager, huser⟩ := h.disabled hstate
    have hnil {α β : Type} {l : List α} {o : Option β} {f : α → β} (ho : o = none)
        (hl : ∀ a ∈ l, o = some (f a)) : l = [] :=
      List.eq_nil_iff_forall_not_mem.mpr fun a ha => by
        have := hl a ha
        rw [ho] at this
        cases this
    refine ⟨hstate, hnil htimer h.timers, hnil (f := id) hclock h.sources, h.sleepHandlers hmanager,
      hnil (f := id) huser h.userHandlers, hnil (f := id) hinhibitor h.inhibitors, ?_⟩
    refine (h.file hstate hstarted).resolve_right fun ⟨t, ht, _⟩ => ?_
    rw [hthreads] at ht
    exact absurd ht List.not_mem_nil

end Tidy

theorem tidy_init (settings : Settings) (clock : Clock) (login : Login) (file : Option Contents) :
    (State.init settings clock login file).Tidy := by
  constructor <;> simp [State.init]

theorem tidy_start (tz : LocalTime) (settings : Settings) (clock : Clock) (login : Login)
    (file : Option Contents) : (start tz settings clock login file).Tidy :=
  (tidy_init settings clock login file).changeSettings settings

/-- In every run in which the answers come in order, no stop cancels the cancellable of a later
start; and once everything has completed with the history disabled again, nothing of the machine
is left. -/
theorem stopsClean_of_reach {tz : LocalTime} {settings : Settings} {clock : Clock} {login : Login}
    {file : Option Contents} {s : State}
    (hreach : Runs.Reach (step tz) Orderly (start tz settings clock login file) s) : s.StopsClean :=
  (hreach.invariant (tidy_start tz settings clock login file)
    fun _ _ _ h hok hstep => h.step hok hstep).stopsClean

def startedAndStopped : List Event :=
  [.resume 0 (some 0), .resume 0 (some 0), .resume 0 (some 0), .resume 0 (some 0),
    .resume 0 (some 7), .resume 0 (some 0), .changeSettings ⟨false, true, 10⟩,
    .resume 0 (some 0), .resume 0 (some 0)]

theorem stopsClean_startedAndStopped :
    ∃ s, Runs.run (step utc) tenSeconds startedAndStopped = some s ∧ s.StopsClean := by
  obtain ⟨s, hrun⟩ := Option.isSome_iff_exists.mp
    (by decide : (Runs.run (step utc) tenSeconds startedAndStopped).isSome)
  have hok : Runs.Allowed (step utc) Orderly tenSeconds startedAndStopped := by decide
  exact ⟨s, hrun, stopsClean_of_reach (.of_run _ hok hrun)⟩

/-- The setting is switched off while the proxy of the user is created: its handler stays. -/
theorem not_stopsClean_stoppedWhileStarting :
    ¬ ∀ s, Runs.Reachable (step utc) tenSeconds s → s.StopsClean := by
  intro h
  have hrun : ∃ s, Runs.run (step utc) tenSeconds
        [.resume 0 (some 0), .resume 0 (some 0), .resume 0 (some 0), .resume 0 (some 0),
          .changeSettings ⟨false, true, 10⟩, .resume 0 (some 0), .resume 0 (some 0),
          .resume 0 (some 7)] = some s ∧
      s.starts ≠ [] ∧ s.settings.historyEnabled = false ∧ s.threads = [] ∧
        s.userHandlers ≠ [] := by
    decide
  obtain ⟨s, hrun, hstarted, hoff, hthreads, hleft⟩ := hrun
  obtain ⟨-, -, -, -, husers, -, -⟩ := (h s (.of_run _ hrun)).stopped hstarted hoff hthreads
  exact hleft husers

end State

end TimeLimitsManager
