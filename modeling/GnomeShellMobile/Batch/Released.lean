import GnomeShellMobile.Batch.Settles

/-!
# Batch — when the hold of a batch is released

* `Inv.tasks_released`: the hold of a batch is released after the holds of its tasks.
* `Inv.under_released`: and after all that is under it, by induction on the path.
* `Inv.released_of_idle`: nothing is left waiting, by induction on the task.
* `runs_once`: what a run of the batch at the top comes to.
-/

namespace Batch

open State

variable {η : Type} [DecidableEq η] {top : Task} {s t : State η} {p q : Path} {i j : ℕ}
  {x : Hold η}

def State.Finished (s : State η) (q : Path) : Prop :=
  q ∈ s.ran ∧ ∃ r, s.results q = some r ∧ ∀ x, r = some x → x ∈ s.emitted

theorem Core.mem_emitted_iff (h : Core top s) (hx : s.Made x) :
    x ∈ s.emitted ↔ s.acquisitions x ≤ 0 := by
  rw [← List.count_pos_iff, h.emitted x hx]
  split <;> simp_all

omit [DecidableEq η] in
theorem Call.belongs_of_drives {c : Call η} (h : c.drives p = true) : c.belongs p = true := by
  cases c with
  | handler c =>
    have : c.handler = .nextTask p := of_decide_eq_true h
    exact decide_eq_true (by rw [this]; rfl)
  | release x => cases h
  | _ => exact h

section

variable (h : Inv top s)
include h

/-- **A batch that is released** has been through its tasks, and their holds are released. -/
theorem Inv.tasks_released (hp : s.index p ≠ none)
    (hacq : s.acquisitions (.batch p) ≤ 0) (hj : j < (top.tasksAt p).length) :
    ∃ r, s.results (j :: p) = some r ∧ ∀ x, r = some x → s.acquisitions x ≤ 0 := by
  have hzero : s.count (Call.belongs p) = 0 := by
    have := h.tokens p
    omega
  have hstack : s.stack.countP (Call.belongs p) = 0 := Nat.eq_zero_of_add_eq_zero_right hzero
  have hlive : s.live (one (Call.belongs p)) = 0 := Nat.eq_zero_of_add_eq_zero_left hzero
  have hdone : ¬ s.Working top p := by
    intro hw
    have hone := h.working p hw
    have hle : s.stack.countP (Call.drives p) ≤ s.stack.countP (Call.belongs p) :=
      List.countP_mono_left fun c _ => Call.belongs_of_drives
    have hdrives : s.live (one (Call.drives p)) = 0 := by
      by_contra hne
      obtain ⟨c, hc, hpos, hd⟩ := exists_of_live hne
      have hnot := eq_false_of_live hlive hc hpos
      rw [Call.belongs_of_drives hd] at hnot
      cases hnot
    rw [count] at hone
    omega
  obtain ⟨k, hk⟩ := Option.ne_none_iff_exists'.mp hp
  have hle : (top.tasksAt p).length ≤ k := by
    by_contra hlt
    exact hdone ⟨k, hk, by omega⟩
  obtain ⟨r, hr, hwaits⟩ := h.before p k hk j (by omega) hj
  refine ⟨r, hr, fun x hx => not_lt.mp fun hpos => ?_⟩
  -- a concurrent batch that waits is not released
  obtain ⟨-, c, hc, rfl, hhandler⟩ := hwaits x hx hpos
  have hnot := eq_false_of_live hlive hc hpos
  rw [show (Call.handler c).belongs p = true from decide_eq_true (by rw [hhandler]; rfl)] at hnot
  cases hnot

theorem Inv.finished_of_results {r : Option (Hold η)}
    (hr : s.results q = some r) (hreleased : ∀ x, r = some x → s.acquisitions x ≤ 0) :
    s.Finished q := by
  obtain ⟨hsome, hreturns⟩ := h.results q r hr
  refine ⟨hreturns.ran hsome, r, hr, fun x hx => ?_⟩
  exact (h.mem_emitted_iff (hreturns.made hx)).mpr (hreleased x hx)

/-- All that is under a batch that is released is finished. Induction on the path, from the batch
on. -/
theorem Inv.under_released (hp : s.index p ≠ none)
    (hacq : s.acquisitions (.batch p) ≤ 0) (l : Path) (hget : (top.get (l ++ p)).isSome)
    (hl : l ≠ []) : ∃ r, s.results (l ++ p) = some r ∧ ∀ x, r = some x → s.acquisitions x ≤ 0 := by
  induction l with
  | nil => exact absurd rfl hl
  | cons j l ih =>
    rw [List.cons_append] at hget ⊢
    have hj : j < (top.tasksAt (l ++ p)).length := Task.get_isSome_iff.mp hget
    by_cases hnil : l = []
    · subst hnil
      exact h.tasks_released hp hacq hj
    · -- the batch that has task `j` is a task itself
      obtain ⟨t, ht⟩ : ∃ t, top.get (l ++ p) = some t := by
        by_contra hnone
        rw [Task.tasksAt, Option.eq_none_iff_forall_ne_some.mpr fun t ht => hnone ⟨t, ht⟩] at hj
        cases hj
      obtain ⟨r, hr, hreleased⟩ := ih (by rw [ht]; rfl) hnil
      rw [Task.tasksAt_of_get ht] at hj
      cases t with
      | function => cases hj
      | batch k ts =>
        have hreturns := (h.results _ r hr).2
        have hbatch := hreturns.batch k ts ht
        refine h.tasks_released (hreturns.own _ hbatch).2 (hreleased _ hbatch) ?_
        rw [Task.tasksAt_of_get ht]
        exact hj

/-- **Before a task of a consecutive batch is run**, the earlier ones are finished, with all that
is under them. -/
theorem Inv.earlier_released (hran : i :: p ∈ s.ran)
    (hkind : top.concurrentAt p = false) (hj : j < i) (l : Path)
    (hget : (top.get (l ++ j :: p)).isSome) : s.Finished (l ++ j :: p) := by
  obtain ⟨i', p', k, heq, hk, hle, hsome⟩ := h.ran _ hran
  obtain ⟨rfl, rfl⟩ := List.cons.inj heq
  have hi := Task.get_isSome_iff.mp hsome
  obtain ⟨r, hr, hwaits⟩ := h.before p k hk j (by omega) (by omega)
  have hreleased : ∀ x, r = some x → s.acquisitions x ≤ 0 := by
    intro x hx
    by_contra hpos
    rw [(hwaits x hx (not_le.mp hpos)).1] at hkind
    cases hkind
  by_cases hl : l = []
  · subst hl
    exact h.finished_of_results hr hreleased
  · obtain ⟨t, ht⟩ : ∃ t, top.get (j :: p) = some t :=
      Option.isSome_iff_exists.mp (h.results _ r hr).1
    cases t with
    | function =>
      rw [Task.get_append, ht, Option.bind_some, Task.get_function hl] at hget
      cases hget
    | batch kind ts =>
      have hreturns := (h.results _ r hr).2
      have hbatch := hreturns.batch kind ts ht
      obtain ⟨r', hr', hreleased'⟩ := h.under_released (hreturns.own _ hbatch).2
        (hreleased _ hbatch) l hget hl
      exact h.finished_of_results hr' hreleased'

/-- **Nothing is left waiting.** With no call left, and the holds that the functions have returned
released, every batch that was started is released. Induction on the task. -/
theorem Inv.released_of_idle (hstack : s.stack = [])
    (hown : ∀ q x, s.results q = some (some (.own x)) → .own x ∈ s.emitted) (t : Task) :
    ∀ p, top.get p = some t → s.index p ≠ none → s.acquisitions (.batch p) ≤ 0 := by
  induction hsize : sizeOf t using Nat.strong_induction_on generalizing t with
  | _ n ih =>
    intro p ht hp
    by_contra hpos
    have hlive : s.live (one (Call.belongs p)) ≠ 0 := by
      have := h.tokens p
      rw [count_of_stack hstack, List.countP_nil] at this
      omega
    obtain ⟨c, hc, hacq, hbelongs⟩ := exists_of_live hlive
    have hpath : c.handler.path = p := of_decide_eq_true hbelongs
    obtain ⟨j, hj⟩ := (h.waits c hc).result
    rw [hpath] at hj
    refine not_le.mpr hacq ?_
    cases hhold : c.hold with
    | own x =>
      rw [hhold] at hj
      exact (h.mem_emitted_iff (x := .own x) trivial).mp (hown _ x hj)
    | batch q =>
      rw [hhold] at hj
      obtain ⟨hsome, hreturns⟩ := h.results _ _ hj
      obtain ⟨rfl, hstarted⟩ := hreturns.own q rfl
      obtain ⟨t', ht'⟩ := Option.isSome_iff_exists.mp hsome
      have hmem : t.tasks[j]? = some t' := by
        rw [Task.get_cons, ht, Option.bind_some] at ht'
        exact ht'
      refine ih (sizeOf t') ?_ t' rfl _ ht' hstarted
      cases t with
      | function => cases hmem
      | batch kind ts =>
        have := List.sizeOf_lt_of_mem (List.mem_of_getElem? hmem)
        simp only [← hsize, Task.batch.sizeOf_spec, Task.tasks] at this ⊢
        omega

end

/-! ## The batch at the top -/

variable {kind : Kind} {tasks : List Task}

omit [DecidableEq η] in
theorem index_setIndex_ne_none (h : s.index q ≠ none) : (s.setIndex p i).index q ≠ none := by
  rw [index_setIndex, Function.update_apply]
  split
  · exact Option.some_ne_none i
  · exact h

theorem index_afterTask (r : Option (Hold η)) (rest : List (Call η)) :
    (s.afterTask top p r rest).index = s.index := by
  have hrecord : (s.record top p r).index = s.index := by
    rw [State.record]
    split <;> rfl
  rw [← hrecord]
  unfold State.afterTask acquireUntilAfter
  cases r with
  | none => rfl
  | some x =>
    dsimp only
    repeat' split
    all_goals rfl

theorem started_step {e : Event η} (hp : s.index p ≠ none)
    (hstep : Batch.step top s e = some t) : t.index p ≠ none := by
  cases e with
  | call =>
    rw [Batch.step, State.call] at hstep
    split at hstep
    · cases hstep
    · cases hstep
    · cases hstep
      rw [State.runTask]
      split
      · exact hp
      · exact hp
      · exact index_setIndex_ne_none hp
    · cases hstep
      rw [index_afterTask]
      exact hp
    · cases hstep
      rw [State.nextTask]
      split <;> exact index_setIndex_ne_none hp
    · cases hstep
      rw [State.release]
      split <;> exact hp
    · cases hstep
      rw [State.callHandler]
      split
      · split <;> exact hp
      · exact hp
  | returns hold =>
    rw [Batch.step] at hstep
    split at hstep
    · cases hstep
      exact hp
    · cases hstep
  | release x =>
    rw [Batch.step] at hstep
    split at hstep
    · cases hstep
      exact hp
    · cases hstep
  | acquire x =>
    rw [Batch.step] at hstep
    split at hstep
    · cases hstep
      exact hp
    · cases hstep

theorem started_top (h : Runs.Reachable (Batch.step (.batch kind tasks)) State.run s) :
    s.index [] ≠ none :=
  h.invariant (I := fun s => s.index [] ≠ none) (Option.some_ne_none 0)
    fun _ _ _ hu _ hstep => started_step hu hstep

/-- **The runner of batches.** -/
theorem released_once (h : Runs.Reachable (Batch.step (.batch kind tasks)) State.run s) :
    -- released at most once, and the batches never throw
    s.emitted.count (.batch []) ≤ 1 ∧ s.threw = false ∧
    -- only after every task has run, and its hold was released
    (.batch [] ∈ s.emitted → ∀ q ≠ [], ((Task.batch kind tasks).get q).isSome → s.Finished q) ∧
    -- a task of a consecutive batch starts after all that is in the earlier ones
    (∀ i p, i :: p ∈ s.ran → (Task.batch kind tasks).concurrentAt p = false → ∀ j < i, ∀ l,
      ((Task.batch kind tasks).get (l ++ j :: p)).isSome → s.Finished (l ++ j :: p)) ∧
    -- with no call left, and all the holds that were returned released, it has been released
    (s.stack = [] → (∀ q x, s.results q = some (some (.own x)) → .own x ∈ s.emitted) →
      .batch [] ∈ s.emitted) ∧
    -- the calls do come to an end, whatever was released
    ∃ n t, Runs.run (Batch.step (.batch kind tasks)) s (List.replicate n .call) = some t ∧
      t.Outside = true := by
  have hinv := Inv.of_reachable h
  have hstarted := started_top h
  have htop : s.Made (.batch []) := hstarted
  refine ⟨?_, hinv.threw, fun hmem q hq hget => ?_, fun i p hran hkind j hj l hget => ?_,
    fun hstack hown => ?_, hinv.settles⟩
  · rw [hinv.emitted _ htop]
    split <;> omega
  · have hacq := (hinv.mem_emitted_iff htop).mp hmem
    rw [← List.append_nil q] at hget ⊢
    obtain ⟨r, hr, hreleased⟩ := hinv.under_released hstarted hacq q hget hq
    exact hinv.finished_of_results hr hreleased
  · exact hinv.earlier_released hran hkind hj l hget
  · exact (hinv.mem_emitted_iff htop).mpr (hinv.released_of_idle hstack hown _ [] rfl hstarted)

def nested : List Task := [.batch .concurrent [.function, .function], .function]

def nestedRun : List (Event ℕ) :=
  [.call, .call, .returns (some 0), .call, .call, .call, .release 0, .call, .call, .call,
    .returns (some 1), .call, .call, .call, .call, .release 1, .call, .call, .call, .call, .call,
    .call, .returns (some 1), .call, .call, .call]

/-- The batch is released at the end of the run, and that once. -/
theorem released_once_nested :
    ∃ s ∈ Runs.run (step (.batch .consecutive nested)) State.run nestedRun,
      s.stack = [] ∧ .batch [] ∈ s.emitted ∧ s.emitted.count (.batch []) ≤ 1 := by
  obtain ⟨s, hs, hstack, hmem⟩ : ∃ s ∈ Runs.run (step (.batch .consecutive nested)) State.run
      nestedRun, s.stack = [] ∧ .batch [] ∈ s.emitted := by decide
  exact ⟨s, hs, hstack, hmem, (released_once (Runs.Reachable.of_run nestedRun hs)).1⟩

end Batch
