import GnomeShellMobile.Batch.Releases

/-!
# Batch — the calls come to an end

`State.potential` is what the calls on the stack and the handlers that wait can still cause; each
call makes it less (`Inv.call_lt`). So after finitely many calls a function among the tasks is
running, or the stack is empty (`Inv.settles`).
-/

namespace Batch

open State

variable {η : Type} [DecidableEq η] {top : Task} {s t : State η} {p q : Path} {i j : ℕ}
  {c : Call η} {rest : List (Call η)} {x : Hold η}

noncomputable def Task.cost (ts : List Task) : ℕ := (ts.map fun t => 20 * sizeOf t).sum

/-- The tasks of the batch at `p` after the current one. -/
def State.left (top : Task) (s : State η) (p : Path) : List Task :=
  (top.tasksAt p).drop ((s.index p).getD 0 + 1)

noncomputable def State.weigh (top : Task) (s : State η) : Call η → ℕ
  | .process p => max (Task.cost ((top.tasksAt p).drop ((s.index p).getD 0))) 7
  | .function p => Task.cost (s.left top p) + 6
  | .returned p _ => Task.cost (s.left top p) + 6
  | .nextTask p => Task.cost (s.left top p) + 2
  | .release _ => 1
  | .handler c =>
    match c.handler with
    | .nextTask p => Task.cost (s.left top p) + 3
    | .release _ => 3

noncomputable def State.potential (top : Task) (s : State η) : ℕ :=
  (s.stack.map (s.weigh top)).sum + s.live (s.weigh top)

omit [DecidableEq η] in
theorem weigh_congr (h : ∀ p, c.drives p = true → t.index p = s.index p) :
    t.weigh top c = s.weigh top c := by
  cases c with
  | process p => rw [weigh, weigh, h p (decide_eq_true rfl)]
  | function p => rw [weigh, weigh, left, left, h p (decide_eq_true rfl)]
  | returned p r => rw [weigh, weigh, left, left, h p (decide_eq_true rfl)]
  | nextTask p => rw [weigh, weigh, left, left, h p (decide_eq_true rfl)]
  | release x => rfl
  | handler c =>
    cases hc : c.handler with
    | nextTask p =>
      have hp := h p (decide_eq_true hc)
      simp only [weigh, hc, left, hp]
    | release p => simp only [weigh, hc]

omit [DecidableEq η] in
theorem weigh_eq (h : t.index = s.index) : t.weigh top = s.weigh top :=
  funext fun _ => weigh_congr fun _ _ => by rw [h]

omit [DecidableEq η] in
theorem left_eq (h : s.index p = some i) : s.left top p = (top.tasksAt p).drop (i + 1) := by
  rw [left, h]
  rfl

theorem cost_drop {task : Task} (hget : top.get (i :: p) = some task) :
    Task.cost ((top.tasksAt p).drop i) =
      20 * sizeOf task + Task.cost ((top.tasksAt p).drop (i + 1)) := by
  have hi : i < (top.tasksAt p).length := Task.get_isSome_iff.mp (by rw [hget]; rfl)
  have htask : (top.tasksAt p)[i] = task := by
    obtain ⟨t, ht, htask⟩ := Option.bind_eq_some_iff.mp (Task.get_cons ▸ hget)
    rw [← Task.tasksAt_of_get ht] at htask
    exact (List.getElem?_eq_some_iff.mp htask).2
  rw [List.drop_eq_getElem_cons hi, Task.cost, List.map_cons, List.sum_cons, htask]
  rfl

theorem cost_le (ts : List Task) : Task.cost ts + 20 ≤ 20 * sizeOf ts := by
  induction ts with
  | nil => exact le_rfl
  | cons t ts ih =>
    rw [Task.cost, List.map_cons, List.sum_cons, List.cons.sizeOf_spec]
    rw [Task.cost] at ih
    omega

omit [DecidableEq η] in
theorem potential_of_stack (h : s.stack = c :: rest) :
    s.potential top = s.weigh top c + (rest.map (s.weigh top)).sum + s.live (s.weigh top) := by
  rw [potential, h, List.map_cons, List.sum_cons]

theorem Core.weigh_rest (h : Core top s) (hstack : s.stack = c :: rest) (hc : c.drives p = true)
    (hhead : c.handler? = none) (hindex : ∀ q, q ≠ p → s.index q ≠ none → t.index q = s.index q) :
    (rest.map (t.weigh top)).sum = (rest.map (s.weigh top)).sum ∧
      s.live (t.weigh top) = s.live (s.weigh top) := by
  obtain ⟨-, hothers, hconns⟩ := h.alone hstack hc
  have hstarted : ∀ d ∈ s.stack, ∀ q, d.drives q = true → s.index q ≠ none := by
    intro d hd q hq hnone
    have hzero := h.finished q (by rintro ⟨i, hi, -⟩; rw [hnone] at hi; cases hi)
    have := List.countP_pos_iff.mpr ⟨d, hd, hq⟩
    rw [count] at hzero
    omega
  have hrest : ∀ d ∈ rest, t.weigh top d = s.weigh top d := by
    intro d hd
    refine weigh_congr fun q hq => hindex q ?_ ?_
    · rintro rfl
      rw [hothers d hd] at hq
      cases hq
    · exact hstarted d (hstack ▸ List.mem_cons_of_mem _ hd) q hq
  refine ⟨congrArg List.sum (List.map_congr_left hrest), live_congr rfl (fun _ _ => rfl) ?_⟩
  intro d hd
  refine weigh_congr fun q hq => hindex q ?_ ?_
  · rintro rfl
    have := hconns d hd (of_decide_eq_true hq)
    rw [this] at hhead
    cases hhead
  · obtain ⟨i, hi, -⟩ := (h.waits d hd).next q (of_decide_eq_true hq)
    rw [hi]
    exact Option.some_ne_none i

theorem Inv.runTask_lt (h : Inv top s) (hstack : s.stack = .process p :: rest) :
    (s.runTask top p rest).potential top < s.potential top := by
  obtain ⟨i, hi, hlt, hnot⟩ : (Call.process p).Ok top s := h.calls _ (hstack ▸ List.mem_cons_self)
  have hleft : s.left top p = (top.tasksAt p).drop (i + 1) := left_eq hi
  have hprocess : s.weigh top (.process p) =
      max (Task.cost ((top.tasksAt p).drop i)) 7 := by rw [weigh, hi]; rfl
  rw [potential_of_stack hstack, State.runTask, current_eq hi]
  cases hget : top.get (i :: p) with
  | none =>
    have hnil : (top.tasksAt p).drop (i + 1) = [] :=
      List.drop_eq_nil_of_le (Nat.le_succ_of_le (Task.get_eq_none_iff.mp hget))
    show ((Call.returned p none :: rest).map (s.weigh top)).sum + s.live (s.weigh top) < _
    rw [List.map_cons, List.sum_cons, hprocess, weigh, hleft, hnil]
    simp only [Task.cost, List.map_nil, List.sum_nil]
    omega
  | some task =>
    have hcost := cost_drop hget
    cases task with
    | function =>
      have hsize : 0 < sizeOf Task.function := by decide
      show ((Call.function p :: rest).map (s.weigh top)).sum + s.live (s.weigh top) < _
      rw [List.map_cons, List.sum_cons, hprocess, weigh, hleft]
      omega
    | batch k ts =>
      have hnew : s.index (i :: p) = none := by
        by_contra hstarted
        exact hnot (h.started i p hstarted)
      have hpath : p ≠ i :: p := fun heq => List.cons_ne_self i p heq.symm
      dsimp only
      generalize hu : ({ s with ran := (i :: p) :: s.ran } : State η).start (i :: p)
        (.returned p (some (.batch (i :: p))) :: rest) = u
      have hindex : ∀ q, q ≠ i :: p → u.index q = s.index q := by
        rintro q hq
        rw [← hu]
        exact index_start_of_ne hq
      have hself : u.index (i :: p) = some 0 := by
        rw [← hu]
        exact index_start_self
      have hne : ∀ q, s.index q ≠ none → q ≠ i :: p := by
        rintro q hq rfl
        exact hq hnew
      obtain ⟨hrest, hlive⟩ := h.toCore.weigh_rest (t := u) hstack (decide_eq_true rfl) rfl
        fun q _ hq => hindex q (hne q hq)
      have hlive' : u.live (u.weigh top) = s.live (s.weigh top) := by
        rw [← hlive, ← hu]
        exact live_start (h.toCore.hold_ne hnew)
      have hstack' : u.stack = .process (i :: p) :: .returned p (some (.batch (i :: p))) :: rest := by
        rw [← hu]
        rfl
      have htasks : top.tasksAt (i :: p) = ts := Task.tasksAt_of_get hget
      have hts := cost_le ts
      have hsize : sizeOf (Task.batch k ts) = 1 + sizeOf k + sizeOf ts := Task.batch.sizeOf_spec k ts
      rw [potential, hstack', List.map_cons, List.map_cons, List.sum_cons, List.sum_cons, hrest,
        hlive', hprocess, weigh, weigh, left_eq ((hindex p hpath).trans hi), hself, htasks]
      simp only [Option.getD_some, List.drop_zero]
      omega

omit [DecidableEq η] in
theorem weigh_nextTask : s.weigh top (.nextTask p) = Task.cost (s.left top p) + 2 := rfl

omit [DecidableEq η] in
theorem weigh_handler (id : ℕ) (x : Hold η) :
    s.weigh top (.handler ⟨id, x, .nextTask p⟩) = Task.cost (s.left top p) + 3 := rfl

theorem Inv.afterTask_lt {r : Option (Hold η)} (h : Inv top s)
    (hstack : s.stack = .returned p r :: rest) :
    (s.afterTask top p r rest).potential top < s.potential top := by
  obtain ⟨i, hu, -, hstack', hindex, -, hconn, hacq, -⟩ := h.record hstack
  have hweigh : (s.record top p r).weigh top = s.weigh top := weigh_eq hindex
  have hlive : (s.record top p r).live (s.weigh top) = s.live (s.weigh top) :=
    live_congr hconn (fun c _ => by rw [isAcquired, isAcquired, hacq]) fun _ _ => rfl
  rw [potential_of_stack hstack, ← hlive]
  unfold State.afterTask
  generalize s.record top p r = u at hu hstack' hindex hconn hacq hweigh ⊢
  rw [← hweigh]
  have hpos : 0 < u.acquisitions (.batch p) :=
    hu.core.acquired (hstack'.trans hstack) (decide_eq_true rfl)
  have hreturned : u.weigh top (.returned p r) = Task.cost (u.left top p) + 6 := rfl
  have hnext : (u.setStack (.nextTask p :: rest)).potential top <
      u.weigh top (.returned p r) + (rest.map (u.weigh top)).sum + u.live (u.weigh top) := by
    show ((Call.nextTask p :: rest).map (u.weigh top)).sum + u.live (u.weigh top) < _
    rw [List.map_cons, List.sum_cons, weigh_nextTask, hreturned]
    omega
  cases r with
  | none => exact hnext
  | some x =>
    dsimp only
    split
    · rw [acquireUntilAfter]
      split
      · have hone : 0 < u.acquisitions (.batch p) + 1 := by omega
        rw [if_pos (isAcquired_iff.mpr hpos)]
        show ((Call.nextTask p :: rest).map (u.weigh top)).sum +
          ((u.setAcquisitions (.batch p) (u.acquisitions (.batch p) + 1)).connect x
            (.release p)).live (u.weigh top) < _
        have hlive' := live_setAcquisitions (w := u.weigh top) (h := .batch p)
          (n := u.acquisitions (.batch p) + 1) ⟨fun _ => hpos, fun _ => hone⟩
        rw [live_connect, hlive', List.map_cons, List.sum_cons, weigh_nextTask, hreturned]
        split
        · show _ + (_ + 3) < _
          omega
        · omega
      · exact hnext
    · split
      · rename_i hx
        show (rest.map (u.weigh top)).sum + (u.connect x (.nextTask p)).live (u.weigh top) < _
        rw [live_connect, if_pos hx, weigh_handler, hreturned]
        omega
      · exact hnext

theorem Inv.nextTask_lt (h : Inv top s) (hstack : s.stack = .nextTask p :: rest) :
    (s.nextTask top p rest).potential top < s.potential top := by
  obtain ⟨i, hi, -, -⟩ : (Call.nextTask p).Ok top s := h.calls _ (hstack ▸ List.mem_cons_self)
  have hindex : ∀ calls : List (Call η), ∀ q, q ≠ p → s.index q ≠ none →
      ((s.setIndex p (i + 1)).setStack calls).index q = s.index q :=
    fun _ q hq _ => Function.update_of_ne hq ..
  rw [potential_of_stack hstack, weigh_nextTask, left_eq hi, State.nextTask, hi]
  dsimp only [Option.getD_some]
  split
  · obtain ⟨hrest, hlive⟩ := h.toCore.weigh_rest hstack (decide_eq_true rfl) rfl
      (hindex (.release (.batch p) :: rest))
    rw [potential, stack_setStack, List.map_cons, List.sum_cons, hrest]
    show 1 + _ + s.live _ < _
    rw [hlive]
    omega
  · rename_i hlt
    obtain ⟨hrest, hlive⟩ := h.toCore.weigh_rest hstack (decide_eq_true rfl) rfl
      (hindex (.process p :: rest))
    obtain ⟨task, htask⟩ := Option.isSome_iff_exists.mp
      (Task.get_isSome_iff.mpr (not_le.mp hlt))
    have hcost := cost_drop htask
    have hself : ((s.setIndex p (i + 1)).setStack (.process p :: rest)).index p = some (i + 1) :=
      Function.update_self ..
    have hsize : 0 < sizeOf task := by cases task <;> simp
    rw [potential, stack_setStack, List.map_cons, List.sum_cons, hrest]
    show _ + _ + s.live _ < _
    rw [hlive, weigh, hself]
    simp only [Option.getD_some]
    omega

theorem release_lt (hstack : s.stack = .release x :: rest) :
    (s.release x rest).potential top < s.potential top := by
  have hself : (s.setAcquisitions x (s.acquisitions x - 1)).acquisitions x =
      s.acquisitions x - 1 := Function.update_self ..
  rw [potential_of_stack hstack, State.release]
  split
  · rename_i hzero
    rw [hself] at hzero
    have hreleased := live_released (s := s) (w := s.weigh top) (h := x) (by omega)
    rw [hzero]
    show ((s.handlers x ++ rest).map (s.weigh top)).sum +
      (s.setAcquisitions x 0).live (s.weigh top) < 1 + _ + _
    rw [List.map_append, List.sum_append]
    omega
  · rename_i hzero
    rw [hself] at hzero
    show (rest.map (s.weigh top)).sum +
      (s.setAcquisitions x (s.acquisitions x - 1)).live (s.weigh top) < 1 + _ + _
    rw [live_setAcquisitions (by omega)]
    omega

theorem Inv.callHandler_lt {d : Connection η} (h : Inv top s)
    (hstack : s.stack = .handler d :: rest) :
    (s.callHandler d rest).potential top < s.potential top := by
  obtain ⟨hmem, hle⟩ : d ∈ s.connections ∧ s.acquisitions d.hold ≤ 0 :=
    h.calls (.handler d) (hstack ▸ List.mem_cons_self)
  have hlive : (s.disconnect d).live (s.weigh top) = s.live (s.weigh top) :=
    live_disconnect (Bool.eq_false_iff.mpr fun hpos => not_lt.mpr hle (isAcquired_iff.mp hpos))
  rw [potential_of_stack hstack, State.callHandler, if_pos hmem]
  obtain ⟨id, y, g⟩ := d
  cases g with
  | nextTask p =>
    show ((Call.nextTask p :: rest).map (s.weigh top)).sum + (s.disconnect _).live (s.weigh top) <
      _
    rw [hlive, List.map_cons, List.sum_cons, weigh_nextTask, weigh_handler]
    omega
  | release p =>
    show ((Call.release (.batch p) :: rest).map (s.weigh top)).sum + (s.disconnect _).live (s.weigh top) <
      _
    rw [hlive, List.map_cons, List.sum_cons]
    show 1 + _ + _ < 3 + _ + _
    omega

/-- **Each call causes less.** -/
theorem Inv.call_lt (h : Inv top s) (hcall : s.call top = some t) :
    t.potential top < s.potential top := by
  rw [State.call] at hcall
  split at hcall
  · cases hcall
  · cases hcall
  · cases hcall
    exact h.runTask_lt ‹_›
  · cases hcall
    exact h.afterTask_lt ‹_›
  · cases hcall
    exact h.nextTask_lt ‹_›
  · cases hcall
    exact release_lt ‹_›
  · cases hcall
    exact h.callHandler_lt ‹_›

theorem call_eq_none_iff : s.call top = none ↔ s.Outside = true := by
  rw [State.call, State.Outside]
  split <;> simp_all

/-- **The batches come to rest.** The calls go on for a while, until a function is running or none
is left. Induction on the potential. -/
theorem Inv.settles (h : Inv top s) :
    ∃ n t, Runs.run (Batch.step top) s (List.replicate n .call) = some t ∧ t.Outside = true := by
  induction hn : s.potential top using Nat.strong_induction_on generalizing s with
  | _ n ih =>
    cases hcall : s.call top with
    | none => exact ⟨0, s, rfl, call_eq_none_iff.mp hcall⟩
    | some u =>
      have hu : Inv top u := h.step (e := .call) hcall
      obtain ⟨m, t, hrun, ht⟩ := ih _ (hn ▸ h.call_lt hcall) hu rfl
      refine ⟨m + 1, t, ?_, ht⟩
      rw [List.replicate_succ, Runs.run_cons, show Batch.step top s .call = some u from hcall]
      exact hrun

end Batch
