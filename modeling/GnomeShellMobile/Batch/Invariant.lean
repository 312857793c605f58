import GnomeShellMobile.Batch.Counting

/-!
# Batch — what holds between two calls

* `State.Settled`: a task has returned, and its hold no longer keeps the batch waiting, or a
  concurrent batch is connected to it.
* `Core`: the facts about the objects and the record. The hold of a batch has as many acquisitions
  as there are calls and waiting handlers of the batch (`tokens`), and exactly one of them brings
  the batch to its next task while it has any (`drivers`).
* `Call.Ok`: what a call finds when it is executed.
* `Inv`: both.
-/

namespace Batch

open State

variable {η : Type} {top : Task} {s t : State η} {p q : Path} {i j : ℕ}

namespace Task

theorem get_cons : top.get (i :: p) = (top.get p).bind fun t => t.tasks[i]? := rfl

theorem tasksAt_of_get {t : Task} (h : top.get p = some t) : top.tasksAt p = t.tasks := by
  rw [tasksAt, h]
  rfl

theorem get_isSome_iff : (top.get (i :: p)).isSome ↔ i < (top.tasksAt p).length := by
  rw [get_cons]
  cases h : top.get p with
  | none => simp [tasksAt, h]
  | some t => simp [tasksAt, h]

theorem get_eq_none_iff : top.get (i :: p) = none ↔ (top.tasksAt p).length ≤ i := by
  rw [← Option.not_isSome_iff_eq_none, get_isSome_iff, not_lt]

theorem get_append (l : Path) : top.get (l ++ p) = (top.get p).bind fun t => t.get l := by
  induction l with
  | nil =>
    rw [List.nil_append]
    cases top.get p <;> rfl
  | cons j l ih =>
    rw [List.cons_append, get_cons, ih, Option.bind_assoc]
    rfl

theorem get_function {l : Path} (hl : l ≠ []) : function.get l = none := by
  induction l with
  | nil => exact absurd rfl hl
  | cons j l ih =>
    rw [get_cons]
    by_cases hnil : l = []
    · rw [hnil]
      rfl
    · rw [ih hnil]
      rfl

end Task

namespace State

def Made (s : State η) : Hold η → Prop
  | .own _ => True
  | .batch p => s.index p ≠ none

/-- The batch at `p` has been started, and has not been through its tasks. -/
def Working (top : Task) (s : State η) (p : Path) : Prop :=
  ∃ i, s.index p = some i ∧ i < max (top.tasksAt p).length 1

/-- Task `j` of the batch at `p` has returned. If the hold it returned is acquired, the batch is a
concurrent one, and its own hold waits for it. -/
def Settled (top : Task) (s : State η) (p : Path) (j : ℕ) : Prop :=
  ∃ r, s.results (j :: p) = some r ∧ ∀ h, r = some h → 0 < s.acquisitions h →
    top.concurrentAt p = true ∧ ∃ c ∈ s.connections, c.hold = h ∧ c.handler = .release p

/-- What `run()` of the task at `q` returns, or `none` if there is no such task: the hold of a
batch, and no other batch's. -/
structure Returns (top : Task) (s : State η) (q : Path) (r : Option (Hold η)) : Prop where
  missing : top.get q = none → r = none
  ran : (top.get q).isSome → q ∈ s.ran
  batch : ∀ k ts, top.get q = some (.batch k ts) → r = some (.batch q)
  own : ∀ q', r = some (.batch q') → q' = q ∧ s.index q ≠ none

structure Grows (s t : State η) : Prop where
  started : ∀ p, s.index p ≠ none → t.index p ≠ none
  ran : ∀ q ∈ s.ran, q ∈ t.ran
  results : ∀ q r, s.results q = some r → t.results q = some r
  released : ∀ h, s.Made h → s.acquisitions h ≤ 0 → t.acquisitions h ≤ 0
  waits : ∀ c ∈ s.connections, s.Made c.hold → 0 < t.acquisitions c.hold → c ∈ t.connections

theorem Grows.made (h : Grows s t) {x : Hold η} (hx : s.Made x) : t.Made x := by
  cases x with
  | own x => exact trivial
  | batch p => exact h.started p hx

theorem Grows.trans {u : State η} (h : Grows s t) (h' : Grows t u) : Grows s u where
  started p hp := h'.started p (h.started p hp)
  ran q hq := h'.ran q (h.ran q hq)
  results q r hr := h'.results q r (h.results q r hr)
  released x hx hle := h'.released x (h.made hx) (h.released x hx hle)
  waits c hc hx hacq := by
    refine h'.waits c (h.waits c hc hx ?_) (h.made hx) hacq
    by_contra hle
    have := h'.released _ (h.made hx) (not_lt.mp hle)
    omega

theorem Returns.made {r : Option (Hold η)} (h : s.Returns top q r) {x : Hold η}
    (hx : r = some x) : s.Made x := by
  cases x with
  | own x => exact trivial
  | batch q' =>
    obtain ⟨rfl, hindex⟩ := h.own q' hx
    exact hindex

theorem Returns.mono {r : Option (Hold η)} (h : s.Returns top q r) (hg : Grows s t) :
    t.Returns top q r where
  __ := h
  ran hq := hg.ran q (h.ran hq)
  own q' hr := ⟨(h.own q' hr).1, hg.started q (h.own q' hr).2⟩

theorem Settled.mono (h : s.Settled top p j) (hg : Grows s t)
    (hmade : ∀ x, s.results (j :: p) = some (some x) → s.Made x) : t.Settled top p j := by
  obtain ⟨r, hr, hwaits⟩ := h
  refine ⟨r, hg.results _ _ hr, fun x hx hacq => ?_⟩
  have hx' : s.Made x := hmade x (hx ▸ hr)
  have hbefore : 0 < s.acquisitions x := by
    by_contra hle
    have := hg.released x hx' (not_lt.mp hle)
    omega
  obtain ⟨hconc, c, hc, rfl, hhandler⟩ := hwaits x hx hbefore
  exact ⟨hconc, c, hg.waits c hc hx' hacq, rfl, hhandler⟩

end State

def Call.Ok (top : Task) (s : State η) : Call η → Prop
  | .process p => ∃ i, s.index p = some i ∧ i < max (top.tasksAt p).length 1 ∧ i :: p ∉ s.ran
  | .function p => ∃ i, s.index p = some i ∧ top.get (i :: p) = some .function ∧
      i :: p ∈ s.ran ∧ s.results (i :: p) = none
  | .returned p r => ∃ i, s.index p = some i ∧ i < max (top.tasksAt p).length 1 ∧
      s.results (i :: p) = none ∧ s.Returns top (i :: p) r
  | .nextTask p => ∃ i, s.index p = some i ∧ i < max (top.tasksAt p).length 1 ∧
      (i < (top.tasksAt p).length → s.Settled top p i)
  | .release x => s.Made x
  | .handler c => c ∈ s.connections ∧ s.acquisitions c.hold ≤ 0

structure Waits (top : Task) (s : State η) (c : Connection η) : Prop where
  result : ∃ j, s.results (j :: c.handler.path) = some (some c.hold)
  pending : 0 < s.acquisitions c.hold ∨ .handler c ∈ s.stack
  next : ∀ p, c.handler = .nextTask p → ∃ i, s.index p = some i ∧
    s.results (i :: p) = some (some c.hold) ∧ i < (top.tasksAt p).length

def Call.handler? : Call η → Option (Connection η)
  | .handler c => some c
  | _ => none

structure Core [DecidableEq η] (top : Task) (s : State η) : Prop where
  threw : s.threw = false
  fresh : ∀ p, s.index p = none → s.acquisitions (.batch p) = 0 ∧ .batch p ∉ s.emitted
  tokens : ∀ p, s.acquisitions (.batch p) = s.count (Call.belongs p)
  working : ∀ p, s.Working top p → s.count (Call.drives p) = 1
  finished : ∀ p, ¬ s.Working top p → s.count (Call.drives p) = 0
  waits : ∀ c ∈ s.connections, Waits top s c
  emission : (s.stack.filterMap Call.handler?).Nodup
  distinct : s.connections.Nodup
  ids : ∀ c ∈ s.connections, c.id < s.nextId
  tree : ∀ p, s.index p ≠ none → ∃ k ts, top.get p = some (.batch k ts)
  started : ∀ i p, s.index (i :: p) ≠ none → i :: p ∈ s.ran
  ran : ∀ q ∈ s.ran, ∃ i p k, q = i :: p ∧ s.index p = some k ∧ i ≤ k ∧ (top.get q).isSome
  results : ∀ q r, s.results q = some r → (top.get q).isSome ∧ s.Returns top q r
  before : ∀ p k, s.index p = some k → ∀ j < k, j < (top.tasksAt p).length → s.Settled top p j
  emitted : ∀ h, s.Made h →
    s.emitted.count h = if s.acquisitions h ≤ 0 then 1 else 0

structure Inv [DecidableEq η] (top : Task) (s : State η) : Prop extends Core top s where
  calls : ∀ c ∈ s.stack, c.Ok top s

theorem Core.made [DecidableEq η] (h : Core top s) {x : Hold η}
    (hx : s.results q = some (some x)) : s.Made x :=
  (h.results q _ hx).2.made rfl

theorem Core.connected_made [DecidableEq η] (h : Core top s) {c : Connection η}
    (hc : c ∈ s.connections) : s.Made c.hold := by
  obtain ⟨j, hj⟩ := (h.waits c hc).result
  exact h.made hj

theorem Call.Ok.mono [DecidableEq η] {c : Call η} (h : c.Ok top s) (hcore : Core top s)
    (hg : Grows s t) (hindex : ∀ p, c.drives p = true → t.index p = s.index p)
    (hran : ∀ i p, c.drives p = true → i :: p ∈ t.ran → i :: p ∈ s.ran)
    (hresults : ∀ i p, c.drives p = true → t.results (i :: p) = s.results (i :: p))
    (hhandler : ∀ d, c = .handler d → d ∈ t.connections ∧ (s.acquisitions d.hold ≤ 0 →
      t.acquisitions d.hold ≤ 0)) : c.Ok top t := by
  cases c with
  | process p =>
    obtain ⟨i, hi, hlt, hnot⟩ := h
    have hp : (Call.process p : Call η).drives p = true := decide_eq_true rfl
    exact ⟨i, (hindex p hp).trans hi, hlt, fun hmem => hnot (hran i p hp hmem)⟩
  | function p =>
    obtain ⟨i, hi, hget, hmem, hnone⟩ := h
    have hp : (Call.function p : Call η).drives p = true := decide_eq_true rfl
    exact ⟨i, (hindex p hp).trans hi, hget, hg.ran _ hmem, (hresults i p hp).trans hnone⟩
  | returned p r =>
    obtain ⟨i, hi, hlt, hnone, hreturns⟩ := h
    have hp : (Call.returned p r).drives p = true := decide_eq_true rfl
    exact ⟨i, (hindex p hp).trans hi, hlt, (hresults i p hp).trans hnone, hreturns.mono hg⟩
  | nextTask p =>
    obtain ⟨i, hi, hlt, hsettled⟩ := h
    have hp : (Call.nextTask p : Call η).drives p = true := decide_eq_true rfl
    exact ⟨i, (hindex p hp).trans hi, hlt, fun hn => (hsettled hn).mono hg fun x => hcore.made⟩
  | release x => exact hg.made h
  | handler d => exact ⟨(hhandler d rfl).1, (hhandler d rfl).2 h.2⟩

/-- **Only one call drives a batch.** If it is the innermost one, no other call does, and no other
handler waits to. -/
theorem Core.alone [DecidableEq η] (h : Core top s) {c : Call η} {rest : List (Call η)}
    (hstack : s.stack = c :: rest) (hc : c.drives p = true) :
    s.Working top p ∧ (∀ d ∈ rest, d.drives p = false) ∧
      ∀ d ∈ s.connections, d.handler = .nextTask p → c = .handler d := by
  have hcount := count_of_stack (f := Call.drives p) hstack
  rw [List.countP_cons, if_pos hc] at hcount
  have hworking : s.Working top p := by
    by_contra hnot
    have := h.finished p hnot
    omega
  have hone := h.working p hworking
  have hrest : rest.countP (Call.drives p) = 0 := by omega
  have hlive : s.live (one (Call.drives p)) = 0 := by omega
  have hothers : ∀ d ∈ rest, d.drives p = false := fun d hd =>
    Bool.eq_false_iff.mpr (List.countP_eq_zero.mp hrest d hd)
  refine ⟨hworking, hothers, fun d hd hnext => ?_⟩
  have hdrives : (Call.handler d).drives p = true := decide_eq_true hnext
  rcases (h.waits d hd).pending with hacq | hmem
  · rw [eq_false_of_live hlive hd hacq] at hdrives
    cases hdrives
  · rw [hstack] at hmem
    rcases List.mem_cons.mp hmem with heq | hmem
    · exact heq.symm
    · rw [hothers _ hmem] at hdrives
      cases hdrives

end Batch
