import GnomeShellMobile.Runs.Basic
import GnomeShellMobile.Runs.Pool
import Mathlib.Logic.Function.Basic

/-!
# ShellAppCache — the workers that read the installed apps

`src/shell-app-cache.c`: a change notification starts a timer, the timer starts a worker, the worker
reads the apps and then the folders in a thread of its own, and its result is delivered to the main
thread at any later time. Workers overlap and are delivered in any order. A worker has a cancellable
of its own, and a `GTask` whose cancellable is cancelled is delivered as an error.

* **`Inv`** — only the cancellable of the worker that was started last may be uncancelled, and that
  worker was started after the last change unless a timer is pending.
* **`Inv.step`** — the step lemma, from one lemma for each event.
* **`run_updates`** — the headline: what is replaced, and what is cached in the end.
-/

namespace ShellAppCache

variable {α β : Type*}

structure Reading (α : Type*) where
  value : α
  time : ℕ
deriving DecidableEq

inductive Progress (α β : Type*) where
  | started
  | listed (appInfos : Reading α)
  | returned (appInfos : Reading α) (folders : Reading β)

structure Task (α β : Type*) where
  cancellable : ℕ
  startedAt : ℕ
  progress : Progress α β

structure State (α β : Type*) where
  folders : Reading β
  cancellable : Option ℕ
  appInfos : Reading α
  queuedUpdate : Bool
  made : ℕ
  isCancelled : ℕ → Bool
  tasks : List (Task α β)
  now : ℕ
  lastChange : Option ℕ
  producer : Option ℕ

/-- `shell_app_cache_init`. -/
def new (appInfos : α) (folders : β) : State α β where
  folders := ⟨folders, 0⟩
  cancellable := none
  appInfos := ⟨appInfos, 0⟩
  queuedUpdate := false
  made := 0
  isCancelled := fun _ => false
  tasks := []
  now := 1
  lastChange := none
  producer := none

namespace State

variable (s : State α β)

/-- `shell_app_cache_queue_update`: a timer that is pending is replaced. -/
def queueUpdate : State α β :=
  { s with queuedUpdate := true, lastChange := some s.now }

/-- `g_cancellable_cancel` and `g_clear_object`. -/
def cancel : State α β :=
  match s.cancellable with
  | none => s
  | some c => { s with isCancelled := Function.update s.isCancelled c true, cancellable := none }

/-- `shell_app_cache_do_update`. -/
def doUpdate : State α β :=
  let s := { s with queuedUpdate := false }.cancel
  { s with
    cancellable := some s.made
    made := s.made + 1
    tasks := s.tasks ++ [⟨s.made, s.now, .started⟩] }

def applyUpdate (cancellable : ℕ) (appInfos : Reading α) (folders : Reading β) :
    State α β :=
  if s.isCancelled cancellable then s
  else { s with appInfos := appInfos, folders := folders, producer := some cancellable }

end State

inductive Event (α β : Type*) where
  /-- From the app monitor, or the monitor of a directory. -/
  | changed
  | timeout
  /-- A worker calls `g_app_info_get_all`. -/
  | listApps (i : ℕ) (appInfos : α)
  /-- A worker calls `load_folders` and returns. -/
  | loadFolders (i : ℕ) (folders : β)
  | deliver (i : ℕ)

variable (s : State α β)

def act : Event α β → Option (State α β)
  | .changed => some s.queueUpdate
  | .timeout => if s.queuedUpdate then some s.doUpdate else none
  | .listApps i appInfos =>
    s.tasks[i]?.bind fun task =>
      match task.progress with
      | .started =>
        let task := { task with progress := .listed ⟨appInfos, s.now⟩ }
        some { s with tasks := s.tasks.set i task }
      | _ => none
  | .loadFolders i folders =>
    s.tasks[i]?.bind fun task =>
      match task.progress with
      | .listed appInfos =>
        let task := { task with progress := .returned appInfos ⟨folders, s.now⟩ }
        some { s with tasks := s.tasks.set i task }
      | _ => none
  | .deliver i =>
    (Runs.take s.tasks i).bind fun (task, rest) =>
      match task.progress with
      | .returned appInfos folders =>
        some ({ s with tasks := rest }.applyUpdate task.cancellable appInfos folders)
      | _ => none

def step (e : Event α β) : Option (State α β) :=
  (act s e).map fun s => { s with now := s.now + 1 }

/-! ## What is meant to hold -/

def Replaces (e : Event α β) (t : State α β) : Prop :=
  (t.appInfos = s.appInfos ∧ t.folders = s.folders ∧ t.producer = s.producer) ∨
    ∃ i task rest, e = .deliver i ∧ Runs.take s.tasks i = some (task, rest) ∧
      task.progress = .returned t.appInfos t.folders ∧ t.producer = some task.cancellable ∧
      ∀ p, s.producer = some p → p < task.cancellable

def State.Settled : Prop :=
  s.queuedUpdate = false ∧ ∀ task ∈ s.tasks, s.isCancelled task.cancellable = true

def State.UpToDate : Prop :=
  ∀ c, s.lastChange = some c → c < s.appInfos.time ∧ c < s.folders.time

/-! ## The invariant -/

def Task.ReadsLate (task : Task α β) : Prop :=
  match task.progress with
  | .started => True
  | .listed appInfos => task.startedAt ≤ appInfos.time
  | .returned appInfos folders => task.startedAt ≤ appInfos.time ∧ task.startedAt ≤ folders.time

structure Cancelling : Prop where
  unmade : ∀ c, s.made ≤ c → s.isCancelled c = false
  current : ∀ c, c < s.made → s.isCancelled c = false → s.cancellable = some c
  newest : ∀ c, s.cancellable = some c → c + 1 = s.made

structure Inv : Prop extends Cancelling s where
  late : ∀ c, s.lastChange = some c → c < s.now
  startedAt : ∀ task ∈ s.tasks, task.startedAt ≤ s.now
  readsLate : ∀ task ∈ s.tasks, task.ReadsLate
  made : ∀ task ∈ s.tasks, task.cancellable < s.made
  nodup : (s.tasks.map (·.cancellable)).Nodup
  producer : ∀ p, s.producer = some p → p < s.made ∧ ∀ task ∈ s.tasks, task.cancellable ≠ p
  uncancelled : ∀ task ∈ s.tasks, s.isCancelled task.cancellable = false →
    ∀ c, s.lastChange = some c → s.queuedUpdate = true ∨ c < task.startedAt
  fresh : ∀ c, s.lastChange = some c → s.queuedUpdate = true ∨
    (∃ task ∈ s.tasks, s.isCancelled task.cancellable = false) ∨
    c < s.appInfos.time ∧ c < s.folders.time

theorem Inv.new (appInfos : α) (folders : β) : Inv (new appInfos folders) := by
  constructor
  · constructor <;> simp [ShellAppCache.new]
  all_goals simp [ShellAppCache.new]

variable {s t : State α β} {i : ℕ} {task : Task α β} {rest : List (Task α β)}

theorem Inv.tick (h : Inv s) : Inv { s with now := s.now + 1 } :=
  { h with
    late := fun c hc => Nat.lt_succ_of_lt (h.late c hc)
    startedAt := fun task ht => Nat.le_succ_of_le (h.startedAt task ht) }

theorem Inv.queueUpdate (h : Inv s) : Inv { s.queueUpdate with now := s.now + 1 } :=
  { h.tick with
    late := by
      intro c hc
      cases hc
      exact Nat.lt_succ_self _
    uncancelled := fun _ _ _ _ _ => .inl rfl
    fresh := fun _ _ => .inl rfl }

theorem Inv.newest_of_uncancelled (h : Inv s) (ht : task ∈ s.tasks)
    (huncancelled : s.isCancelled task.cancellable = false) : task.cancellable + 1 = s.made :=
  h.newest _ (h.current _ (h.made task ht) huncancelled)

theorem Cancelling.isCancelled_cancel (h : Cancelling s) (c : ℕ) :
    s.cancel.isCancelled c = decide (c < s.made) := by
  have hnot : ∀ d, s.cancellable ≠ some d → d < s.made → s.isCancelled d = true := by
    intro d hd hlt
    rw [← Bool.not_eq_false]
    exact fun huncancelled => hd (h.current d hlt huncancelled)
  unfold State.cancel
  cases hcancellable : s.cancellable with
  | none =>
    show s.isCancelled c = _
    by_cases hc : c < s.made
    · rw [hnot c (by rw [hcancellable]; exact (Option.some_ne_none c).symm) hc, decide_eq_true hc]
    · rw [h.unmade c (Nat.le_of_not_lt hc), decide_eq_false hc]
  | some d =>
    show Function.update s.isCancelled d true c = _
    have hd : d + 1 = s.made := h.newest d hcancellable
    by_cases hcd : c = d
    · rw [hcd, Function.update_self, decide_eq_true (by omega)]
    · rw [Function.update_of_ne hcd]
      by_cases hc : c < s.made
      · have hne : s.cancellable ≠ some c := by
          rw [hcancellable]
          exact fun heq => hcd (Option.some.inj heq).symm
        rw [hnot c hne hc, decide_eq_true hc]
      · rw [h.unmade c (Nat.le_of_not_lt hc), decide_eq_false hc]

theorem Cancelling.doUpdate_eq (h : Cancelling s) : s.doUpdate = { s with
      queuedUpdate := false
      isCancelled := fun c => decide (c < s.made)
      cancellable := some s.made
      made := s.made + 1
      tasks := s.tasks ++ [⟨s.made, s.now, .started⟩] } := by
  have hcancelled : s.cancel.isCancelled = fun c => decide (c < s.made) :=
    funext h.isCancelled_cancel
  unfold State.cancel at hcancelled
  unfold State.doUpdate State.cancel
  dsimp only
  cases hcancellable : s.cancellable with
  | none =>
    rw [hcancellable] at hcancelled
    rw [← hcancelled]
  | some c =>
    rw [hcancellable] at hcancelled
    rw [← hcancelled]

theorem Inv.doUpdate (h : Inv s) : Inv s.doUpdate := by
  rw [h.doUpdate_eq]
  have hmem : ∀ {task}, task ∈ s.tasks ++ [⟨s.made, s.now, .started⟩] →
      task ∈ s.tasks ∨ task = ⟨s.made, s.now, .started⟩ := fun ht =>
    (List.mem_append.mp ht).imp_right List.mem_singleton.mp
  constructor
  · constructor
    · intro c hc
      exact decide_eq_false (by simp at hc; omega)
    · intro c hc huncancelled
      have hc' : ¬c < s.made := of_decide_eq_false huncancelled
      have heq : s.made = c := by simp at hc; omega
      exact congrArg some heq
    · intro c hc
      rw [← Option.some.inj hc]
  · exact h.late
  · intro task ht
    rcases hmem ht with ht | rfl
    · exact h.startedAt task ht
    · exact Nat.le_refl _
  · intro task ht
    rcases hmem ht with ht | rfl
    · exact h.readsLate task ht
    · exact trivial
  · intro task ht
    rcases hmem ht with ht | rfl
    · exact Nat.lt_succ_of_lt (h.made task ht)
    · exact Nat.lt_succ_self _
  · rw [List.map_append, List.nodup_append]
    refine ⟨h.nodup, List.nodup_singleton _, fun c hc d hd => ?_⟩
    obtain ⟨task, ht, rfl⟩ := List.mem_map.mp hc
    rw [List.mem_singleton.mp hd]
    exact Nat.ne_of_lt (h.made task ht)
  · intro p hp
    obtain ⟨hlt, hne⟩ := h.producer p hp
    refine ⟨Nat.lt_succ_of_lt hlt, fun task ht => ?_⟩
    rcases hmem ht with ht | rfl
    · exact hne task ht
    · exact (Nat.ne_of_lt hlt).symm
  · -- the worker that is started is the only one that is not cancelled
    intro task ht huncancelled c hc
    rcases hmem ht with ht | rfl
    · exact absurd (h.made task ht) (of_decide_eq_false huncancelled)
    · exact .inr (h.late c hc)
  · intro c hc
    refine .inr (.inl ⟨_, List.mem_append_right _ (List.mem_singleton_self _), ?_⟩)
    exact decide_eq_false (Nat.lt_irrefl _)

theorem map_set_eq {task' : Task α β} (hi : s.tasks[i]? = some task)
    (hcancellable : task'.cancellable = task.cancellable) :
    (s.tasks.set i task').map (·.cancellable) = s.tasks.map (·.cancellable) := by
  obtain ⟨hlt, hget⟩ := List.getElem?_eq_some_iff.mp hi
  have hself := @List.set_getElem_self _ (s.tasks.map (·.cancellable)) i (by simpa using hlt)
  rw [List.getElem_map, hget] at hself
  rw [List.map_set, hcancellable, hself]

theorem Inv.setTask (h : Inv s) (task' : Task α β) (hi : s.tasks[i]? = some task)
    (hcancellable : task'.cancellable = task.cancellable)
    (hstarted : task'.startedAt = task.startedAt) (hlate : task'.ReadsLate) :
    Inv { s with tasks := s.tasks.set i task' } := by
  have htask : task ∈ s.tasks := List.mem_of_getElem? hi
  have hkeys := map_set_eq hi hcancellable
  -- of each worker there was one with the same cancellable, started at the same time
  have hlike : ∀ {u}, u ∈ s.tasks.set i task' →
      ∃ v ∈ s.tasks, v.cancellable = u.cancellable ∧ v.startedAt = u.startedAt := by
    intro u hu
    rcases List.mem_or_eq_of_mem_set hu with hu | rfl
    · exact ⟨u, hu, rfl, rfl⟩
    · exact ⟨task, htask, hcancellable.symm, hstarted.symm⟩
  refine ⟨⟨h.unmade, h.current, h.newest⟩, h.late, ?_, ?_, ?_, ?_, ?_, ?_, ?_⟩
  · intro u hu
    obtain ⟨v, hv, -, hsame⟩ := hlike hu
    exact hsame ▸ h.startedAt v hv
  · intro u hu
    rcases List.mem_or_eq_of_mem_set hu with hu | rfl
    · exact h.readsLate u hu
    · exact hlate
  · intro u hu
    obtain ⟨v, hv, hkey, -⟩ := hlike hu
    exact hkey ▸ h.made v hv
  · show (List.map _ _).Nodup
    rw [hkeys]
    exact h.nodup
  · intro p hp
    obtain ⟨hlt, hne⟩ := h.producer p hp
    refine ⟨hlt, fun u hu => ?_⟩
    obtain ⟨v, hv, hkey, -⟩ := hlike hu
    exact hkey ▸ hne v hv
  · intro u hu huncancelled
    obtain ⟨v, hv, hkey, hsame⟩ := hlike hu
    rw [← hsame]
    exact h.uncancelled v hv (hkey ▸ huncancelled)
  · intro c hc
    rcases h.fresh c hc with hqueued | ⟨u, hu, huncancelled⟩ | hread
    · exact .inl hqueued
    · have hkey : u.cancellable ∈ (s.tasks.set i task').map (·.cancellable) :=
        hkeys ▸ List.mem_map_of_mem hu
      obtain ⟨u', hu', heq⟩ := List.mem_map.mp hkey
      exact .inr (.inl ⟨u', hu', heq ▸ huncancelled⟩)
    · exact .inr (.inr hread)

theorem Inv.applyUpdate {appInfos : Reading α} {folders : Reading β} (h : Inv s)
    (htake : Runs.take s.tasks i = some (task, rest))
    (hprogress : task.progress = .returned appInfos folders) :
    Inv ({ s with tasks := rest }.applyUpdate task.cancellable appInfos folders) := by
  have htask : task ∈ s.tasks := Runs.take_mem htake
  have hmem : ∀ {u}, u ∈ rest → u ∈ s.tasks := Runs.mem_of_take htake
  have hnodup := ((Runs.take_perm htake).map (·.cancellable)).nodup_iff.mp h.nodup
  rw [List.map_cons, List.nodup_cons] at hnodup
  have hlate := h.readsLate task htask
  rw [Task.ReadsLate, hprogress] at hlate
  unfold State.applyUpdate
  split
  · -- its cancellable is cancelled, so it is not the worker that was started last
    next hcancelled =>
    refine ⟨⟨h.unmade, h.current, h.newest⟩, h.late, fun u hu => h.startedAt u (hmem hu),
      fun u hu => h.readsLate u (hmem hu), fun u hu => h.made u (hmem hu), hnodup.2, ?_,
      fun u hu => h.uncancelled u (hmem hu), ?_⟩
    · intro p hp
      obtain ⟨hlt, hne⟩ := h.producer p hp
      exact ⟨hlt, fun u hu => hne u (hmem hu)⟩
    · intro c hc
      rcases h.fresh c hc with hqueued | ⟨u, hu, huncancelled⟩ | hread
      · exact .inl hqueued
      · rcases Runs.mem_cases_of_take htake hu with rfl | hu
        · rw [huncancelled] at hcancelled
          cases hcancelled
        · exact .inr (.inl ⟨u, hu, huncancelled⟩)
      · exact .inr (.inr hread)
  · next hcancelled =>
    refine ⟨⟨h.unmade, h.current, h.newest⟩, h.late, fun u hu => h.startedAt u (hmem hu),
      fun u hu => h.readsLate u (hmem hu), fun u hu => h.made u (hmem hu), hnodup.2, ?_,
      fun u hu => h.uncancelled u (hmem hu), ?_⟩
    · intro p hp
      cases hp
      refine ⟨h.made task htask, fun u hu heq => ?_⟩
      exact hnodup.1 (heq ▸ List.mem_map_of_mem hu)
    · intro c hc
      rcases h.uncancelled task htask (Bool.eq_false_iff.mpr hcancelled) c hc with hqueued | hlt
      · exact .inl hqueued
      · exact .inr (.inr ⟨Nat.lt_of_lt_of_le hlt hlate.1, Nat.lt_of_lt_of_le hlt hlate.2⟩)

theorem Inv.step {e : Event α β} (h : Inv s) (hstep : step s e = some t) : Inv t := by
  obtain ⟨u, hact, rfl⟩ := Option.map_eq_some_iff.mp hstep
  cases e with
  | changed =>
    cases hact
    exact h.queueUpdate
  | timeout =>
    obtain ⟨-, hact⟩ := Option.ite_none_right_eq_some.mp hact
    cases hact
    exact h.doUpdate.tick
  | listApps i appInfos =>
    obtain ⟨task, hi, hact⟩ := Option.bind_eq_some_iff.mp hact
    split at hact
    · cases hact
      have hstarted := h.startedAt task (List.mem_of_getElem? hi)
      exact (h.setTask { task with progress := .listed ⟨appInfos, s.now⟩ } hi rfl rfl
        hstarted).tick
    · cases hact
  | loadFolders i folders =>
    obtain ⟨task, hi, hact⟩ := Option.bind_eq_some_iff.mp hact
    split at hact
    · next appInfos hprogress =>
      cases hact
      have htask := List.mem_of_getElem? hi
      have hlisted := h.readsLate task htask
      rw [Task.ReadsLate, hprogress] at hlisted
      have hlate : task.startedAt ≤ appInfos.time ∧ task.startedAt ≤ s.now :=
        ⟨hlisted, h.startedAt task htask⟩
      exact (h.setTask { task with progress := .returned appInfos ⟨folders, s.now⟩ } hi
        rfl rfl hlate).tick
    · cases hact
  | deliver i =>
    obtain ⟨⟨task, rest⟩, htake, hact⟩ := Option.bind_eq_some_iff.mp hact
    dsimp only at hact
    split at hact
    · next appInfos folders hprogress =>
      cases hact
      exact (h.applyUpdate htake hprogress).tick
    · cases hact

/-! ## What is replaced, and what is cached in the end -/

theorem Inv.replaces {e : Event α β} (h : Inv s) (hstep : ShellAppCache.step s e = some t) :
    Replaces s e t := by
  obtain ⟨u, hact, rfl⟩ := Option.map_eq_some_iff.mp hstep
  cases e with
  | changed =>
    cases hact
    exact .inl ⟨rfl, rfl, rfl⟩
  | timeout =>
    obtain ⟨-, hact⟩ := Option.ite_none_right_eq_some.mp hact
    cases hact
    rw [h.doUpdate_eq]
    exact .inl ⟨rfl, rfl, rfl⟩
  | listApps i appInfos =>
    obtain ⟨task, hi, hact⟩ := Option.bind_eq_some_iff.mp hact
    split at hact
    · cases hact
      exact .inl ⟨rfl, rfl, rfl⟩
    · cases hact
  | loadFolders i folders =>
    obtain ⟨task, hi, hact⟩ := Option.bind_eq_some_iff.mp hact
    split at hact
    · cases hact
      exact .inl ⟨rfl, rfl, rfl⟩
    · cases hact
  | deliver i =>
    obtain ⟨⟨task, rest⟩, htake, hact⟩ := Option.bind_eq_some_iff.mp hact
    dsimp only at hact
    split at hact
    · next appInfos folders hprogress =>
      cases hact
      unfold State.applyUpdate
      split
      · exact .inl ⟨rfl, rfl, rfl⟩
      · next hcancelled =>
        have htask : task ∈ s.tasks := Runs.take_mem htake
        have hnewest := h.newest_of_uncancelled htask (Bool.eq_false_iff.mpr hcancelled)
        refine .inr ⟨i, task, rest, rfl, htake, hprogress, rfl, fun p hp => ?_⟩
        -- each cancellable is of one worker, which is delivered once
        obtain ⟨hlt, hne⟩ := h.producer p hp
        have hother := hne task htask
        omega
    · cases hact

theorem Inv.upToDate (h : Inv s) (hsettled : s.Settled) : s.UpToDate := by
  intro c hc
  rcases h.fresh c hc with hqueued | ⟨task, ht, huncancelled⟩ | hread
  · rw [hsettled.1] at hqueued
    cases hqueued
  · rw [hsettled.2 task ht] at huncancelled
    cases huncancelled
  · exact hread

/-- In every run, a result that is delivered takes the place of an earlier worker's only, and once
nothing is pending, what is cached was read after the last change. -/
theorem run_updates (appInfos : α) (folders : β) {es : List (Event α β)}
    (hrun : Runs.run step (new appInfos folders) es = some s) :
    Runs.Along step Replaces (new appInfos folders) es ∧ (s.Settled → s.UpToDate) := by
  have hinv : Inv s := (Runs.Reachable.of_run es hrun).invariant (Inv.new appInfos folders)
    fun _ _ _ hu _ hstep => hu.step hstep
  refine ⟨(Runs.allowed_any step _ es).along (Inv.new appInfos folders) ?_, hinv.upToDate⟩
  intro u e v hu _ hstep
  exact ⟨hu.replaces hstep, hu.step hstep⟩

def overtaken : List (Event ℕ ℕ) :=
  [.changed, .timeout, .listApps 0 1, .changed, .timeout, .listApps 1 2, .loadFolders 1 2, .deliver 1,
    .loadFolders 0 1, .deliver 0]

theorem run_updates_overtaken : ∃ s, Runs.run step (new 0 0) overtaken = some s ∧
    Runs.Along step Replaces (new 0 0) overtaken ∧ (s.Settled → s.UpToDate) := by
  have hrun : (Runs.run step (new 0 0) overtaken).isSome = true := by decide
  obtain ⟨s, hs⟩ := Option.isSome_iff_exists.mp hrun
  exact ⟨s, hs, run_updates 0 0 hs⟩

end ShellAppCache
