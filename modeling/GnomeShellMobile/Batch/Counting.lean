import GnomeShellMobile.Batch.Machine
import Mathlib.Algebra.GroupWithZero.Nat
import Mathlib.Data.List.Nodup
import Mathlib.Algebra.BigOperators.Group.List.Basic
import Mathlib.Algebra.Order.Group.Nat
import Mathlib.Algebra.Order.BigOperators.Group.List

/-!
# Batch — who still has to do something for a batch

A batch is kept going by what is on the stack, and by what is connected to holds that are
acquired. `State.count f` counts both; every function of the source moves what it counts from one
place to the other, except for `acquireUntilAfter()` (one more) and `release()` (one less).
-/

namespace Batch

open State

variable {η : Type} {s t : State η} {f : Call η → Bool} {w : Call η → ℕ} {rest : List (Call η)}

def Handler.path : Handler → Path
  | .nextTask p => p
  | .release p => p

namespace Call

/-- The call is one of the batch at `p`, or releases its hold. -/
def belongs (p : Path) : Call η → Bool
  | .process q => q = p
  | .function q => q = p
  | .returned q _ => q = p
  | .nextTask q => q = p
  | .release (.batch q) => q = p
  | .release (.own _) => false
  | .handler c => c.handler.path = p

/-- The call brings the batch at `p` to its next task. -/
def drives (p : Path) : Call η → Bool
  | .process q => q = p
  | .function q => q = p
  | .returned q _ => q = p
  | .nextTask q => q = p
  | .release _ => false
  | .handler c => c.handler = .nextTask p

@[simp] theorem belongs_process {p q : Path} :
    (process q : Call η).belongs p = decide (q = p) := rfl

@[simp] theorem drives_process {p q : Path} : (process q : Call η).drives p = decide (q = p) := rfl

end Call

namespace State

def live (w : Call η → ℕ) (s : State η) : ℕ :=
  (s.connections.map fun c => if s.isAcquired c.hold then w (.handler c) else 0).sum

def one (f : Call η → Bool) (c : Call η) : ℕ := if f c then 1 else 0

/-- The calls that `f` counts, and the handlers that wait. -/
def count (f : Call η → Bool) (s : State η) : ℕ := s.stack.countP f + s.live (one f)

@[simp] theorem isAcquired_iff {h : Hold η} : s.isAcquired h = true ↔ 0 < s.acquisitions h := by
  simp [isAcquired]

variable (calls : List (Call η))

@[simp] theorem stack_setStack : (s.setStack calls).stack = calls := rfl

theorem results_setResult (p : Path) (r : Option (Hold η)) :
    (s.setResult p r).results = Function.update s.results p (some r) := rfl

theorem index_setIndex (p : Path) (i : ℕ) :
    (s.setIndex p i).index = Function.update s.index p (some i) := rfl

theorem count_setStack :
    (s.setStack calls).count f = calls.countP f + s.live (one f) := rfl

theorem count_of_stack {calls : List (Call η)} (h : s.stack = calls) :
    s.count f = calls.countP f + s.live (one f) := by
  rw [count, h]

theorem count_replace {c c' : Call η} (h : s.stack = c :: rest) (hf : f c' = f c) :
    (s.setStack (c' :: rest)).count f = s.count f := by
  rw [count_setStack, count_of_stack h, List.countP_cons, List.countP_cons, hf]

theorem live_congr {w' : Call η → ℕ} (hconn : t.connections = s.connections)
    (h : ∀ c ∈ s.connections, t.isAcquired c.hold = s.isAcquired c.hold)
    (hw : ∀ c ∈ s.connections, w' (.handler c) = w (.handler c)) : t.live w' = s.live w := by
  rw [live, live, hconn]
  refine congrArg List.sum (List.map_congr_left fun c hc => ?_)
  rw [h c hc, hw c hc]

theorem live_connect (h : Hold η) (g : Handler) : (s.connect h g).live w =
      s.live w + if s.isAcquired h then w (.handler ⟨s.nextId, h, g⟩) else 0 := by
  show (List.map _ (s.connections ++ [_])).sum = _
  rw [List.map_append, List.sum_append, List.map_singleton, List.sum_singleton]
  rfl

theorem eq_false_of_live {f : Call η → Bool} (h : s.live (one f) = 0) {c : Connection η}
    (hc : c ∈ s.connections) (hacq : 0 < s.acquisitions c.hold) : f (.handler c) = false := by
  have := List.sum_eq_zero_iff.mp h _ (List.mem_map_of_mem hc)
  rw [if_pos (isAcquired_iff.mpr hacq), one] at this
  cases hf : f (.handler c) with
  | false => rfl
  | true => rw [hf] at this; cases this

theorem exists_of_live {f : Call η → Bool} (h : s.live (one f) ≠ 0) :
    ∃ c ∈ s.connections, 0 < s.acquisitions c.hold ∧ f (.handler c) = true := by
  by_contra hnone
  refine h (List.sum_eq_zero fun n hn => ?_)
  obtain ⟨c, hc, rfl⟩ := List.mem_map.mp hn
  split
  · rename_i hacq
    exact if_neg fun hf => hnone ⟨c, hc, isAcquired_iff.mp hacq, hf⟩
  · rfl

variable [DecidableEq η]

@[simp] theorem acquisitions_setAcquisitions (h : Hold η) (n : ℤ) :
    (s.setAcquisitions h n).acquisitions = Function.update s.acquisitions h n := rfl

theorem live_setAcquisitions {h : Hold η} {n : ℤ} (hn : 0 < n ↔ 0 < s.acquisitions h) :
    (s.setAcquisitions h n).live w = s.live w := by
  refine live_congr rfl (fun c _ => Bool.eq_iff_iff.mpr ?_) fun _ _ => rfl
  rw [isAcquired_iff, isAcquired_iff, acquisitions_setAcquisitions, Function.update_apply]
  split
  · rename_i heq
    rw [heq]
    exact hn
  · rfl

theorem live_disconnect {c : Connection η} (h : s.isAcquired c.hold = false) :
    (s.disconnect c).live w = s.live w := by
  show ((s.connections.erase c).map fun d =>
    if s.isAcquired d.hold then w (.handler d) else 0).sum = _
  by_cases hc : c ∈ s.connections
  · rw [live, ((List.perm_cons_erase hc).map _).sum_eq, List.map_cons, List.sum_cons, h]
    exact (Nat.zero_add _).symm
  · rw [List.erase_of_not_mem hc]
    rfl

section Start

variable {p q : Path} {calls : List (Call η)}

theorem index_start_self : (s.start q calls).index q = some 0 := Function.update_self ..

theorem index_start_of_ne (h : p ≠ q) : (s.start q calls).index p = s.index p :=
  Function.update_of_ne h ..

theorem acquisitions_start_self : (s.start q calls).acquisitions (.batch q) = 1 :=
  Function.update_self ..

theorem acquisitions_start_of_ne {x : Hold η} (h : x ≠ .batch q) :
    (s.start q calls).acquisitions x = s.acquisitions x :=
  Function.update_of_ne h ..

end Start

theorem live_start {q : Path} (hnew : ∀ c ∈ s.connections, c.hold ≠ .batch q) :
    (s.start q rest).live w = s.live w := by
  refine live_congr rfl (fun c hc => ?_) fun _ _ => rfl
  rw [isAcquired, isAcquired, acquisitions_start_of_ne (hnew c hc)]

/-- **The last release.** The handlers that have waited for it are the calls of the emission. -/
theorem live_released {h : Hold η} (hone : s.acquisitions h = 1) :
    ((s.handlers h).map w).sum + (s.setAcquisitions h 0).live w = s.live w := by
  have hafter : ∀ c : Connection η, (s.setAcquisitions h 0).isAcquired c.hold =
      (s.isAcquired c.hold && !decide (c.hold = h)) := by
    intro c
    by_cases hc : c.hold = h
    · simp [isAcquired, hc]
    · simp [isAcquired, hc]
  have hacquired : s.isAcquired h = true := by
    rw [isAcquired_iff, hone]
    omega
  rw [handlers, live, live, List.map_map]
  show _ + (s.connections.map _).sum = _
  simp only [hafter]
  -- a connection counts on the left once: as a call if it waits for `h`, else as before
  induction s.connections with
  | nil => rfl
  | cons c cs ih =>
    by_cases hc : c.hold = h
    · simp only [List.filter_cons, List.map_cons, List.sum_cons, hc, hacquired, Function.comp_apply, if_true,
        decide_true, Bool.not_true, Bool.and_false, Bool.false_eq_true, if_false] at ih ⊢
      omega
    · simp only [List.filter_cons, List.map_cons, List.sum_cons, hc, decide_false, Bool.not_false,
        Bool.and_true, Bool.false_eq_true, if_false] at ih ⊢
      omega

theorem countP_released {h : Hold η} (hone : s.acquisitions h = 1) :
    (s.handlers h).countP f + (s.setAcquisitions h 0).live (one f) = s.live (one f) := by
  rw [← live_released hone]
  congr 1
  induction s.handlers h with
  | nil => rfl
  | cons c cs ih =>
    rw [List.countP_cons, List.map_cons, List.sum_cons, ih, one]
    omega

end State

end Batch
