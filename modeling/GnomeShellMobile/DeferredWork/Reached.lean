import GnomeShellMobile.DeferredWork.Queues
import Mathlib.Data.List.Count

/-!
# DeferredWork — every work in the queue is reached

The flag that says whether a run before the redraw is scheduled is the length of its queue, and the
flag of the timer is the id of its source. Both are right as long as no callback throws
(`Inv`): a run that is interrupted leaves its flag behind, and nothing schedules the next one.

* `Core`: the queue, against the entries `p` that a run before the redraw will go through.
* `Redraw`, `TimerFlag`: what the two flags say.
* `run_reached_iff`: in which runs every work is reached.
-/

namespace DeferredWork

open State

variable {s t : State} {p : List ℕ} {w a : ℕ}

/-! ## The invariant -/

variable (s)

structure Core (p : List ℕ) : Prop where
  nodup : s.deferredWorkQueue.Nodup
  live : ∀ w a, s.deferredWorkData.get? w = some a → a ∉ s.destroyed
  queued : ∀ w ∈ s.deferredWorkQueue, ∃ a, s.deferredWorkData.get? w = some a
  reached : ∀ w ∈ s.deferredWorkQueue, w ∈ p ∨ s.deferredTimeoutId ≠ 0
  mapped : ∀ w ∈ s.deferredWorkQueue, ∀ a ∈ s.mapped, s.deferredWorkData.get? w = some a → w ∈ p
  known : ∀ w, s.deferredWorkData.has w ∨ w ∈ s.asked ∨ w ∈ s.called → w ≤ s.deferredWorkSequence
  once : ∀ w, s.deferredWorkData.has w →
    s.asked.count w = s.called.count w + s.deferredWorkQueue.count w
  late : s.late = []

/-- While a run goes on, its queue has an entry at least: no other run is scheduled. -/
def Redraw : Prop :=
  match s.running with
  | .beforeRedraw i => i < s.beforeRedrawQueue.length ∧ s.laters = 0
  | .hangs => False
  | _ => s.laters = if s.beforeRedrawQueue = [] then 0 else 1

def TimerFlag : Prop :=
  match s.running with
  | .timer => s.sources = [] ∧ s.deferredTimeoutId ≠ 0
  | _ => s.sources = if s.deferredTimeoutId = 0 then [] else [s.deferredTimeoutId]

structure Inv : Prop where
  core : Core s s.ahead
  redraw : Redraw s
  timer : TimerFlag s

variable {s}

theorem Inv.new : Inv State.new where
  core := by
    constructor
    · exact List.nodup_nil
    · intro w a h
      cases h
    · intro w h
      cases h
    · intro w h
      cases h
    · intro w h
      cases h
    · rintro w (h | h | h) <;> cases h
    · intro w h
      cases h
    · rfl
  redraw := rfl
  timer := rfl

theorem TimerFlag.pending (h : TimerFlag s) (hid : s.deferredTimeoutId ≠ 0) : s.TimerPending := by
  unfold TimerFlag at h
  split at h
  · next hrun => exact .inr hrun
  · rw [if_neg hid] at h
    exact .inl (h ▸ List.cons_ne_nil _ _)

theorem Inv.law (h : Inv s) : Law s where
  __ := h.core
  live w hw := (h.core.queued w hw).imp fun a ha => ⟨ha, h.core.live w a ha⟩
  reached w hw := (h.core.reached w hw).imp_right h.timer.pending
  ends hrun := by
    have hredraw := h.redraw
    rw [Redraw, hrun] at hredraw
    exact hredraw

theorem Inv.unblocked (h : Inv s) : Unblocked s where
  redraw hne := by
    have hredraw := h.redraw
    unfold Redraw at hredraw
    split at hredraw
    · next i hrun => exact .inr ⟨i, hrun⟩
    · exact hredraw.elim
    · rw [if_neg hne] at hredraw
      exact .inl (by omega)
  timer := h.timer.pending

/-! ## The queue -/

section Queue

theorem Core.mono {p' : List ℕ} (h : Core s p) (hsub : p ⊆ p') : Core s p' :=
  { h with
    reached := fun w hw => (h.reached w hw).imp_left (@hsub w)
    mapped := fun w hw a ha hget => hsub (h.mapped w hw a ha hget) }

theorem Core.redraw (h : Core s p) (workIds : List ℕ) (n : ℕ) (r : Running) :
    Core { s with beforeRedrawQueue := workIds, laters := n, running := r } p :=
  ⟨h.nodup, h.live, h.queued, h.reached, h.mapped, h.known, h.once, h.late⟩

theorem Core.skip (h : Core s (w :: p)) (hw : w ∉ s.deferredWorkQueue) : Core s p := by
  have hpast : ∀ x ∈ s.deferredWorkQueue, x ∈ w :: p → x ∈ p := by
    intro x hx hmem
    exact (List.mem_cons.mp hmem).resolve_left fun heq => hw (heq ▸ hx)
  exact { h with
    reached := fun x hx => (h.reached x hx).imp_left (hpast x hx)
    mapped := fun x hx a ha hget => hpast x hx (h.mapped x hx a ha hget) }

section

variable (h : Core s p)
include h

theorem Core.push (hget : s.deferredWorkData.get? w = some a)
    (hreached : w ∈ p ∨ s.deferredTimeoutId ≠ 0) (hmapped : a ∈ s.mapped → w ∈ p) :
    Core (s.push w) p := by
  rw [State.push]
  split
  · exact h
  · next hnot =>
    have hhas : s.deferredWorkData.has w := Dict.has_iff.mpr ⟨a, hget⟩
    refine ⟨?_, h.live, ?_, ?_, ?_, ?_, ?_, h.late⟩
    · exact List.nodup_append.mpr ⟨h.nodup, List.nodup_singleton w, fun x hx y hy heq =>
        hnot (List.mem_singleton.mp hy ▸ heq ▸ hx)⟩
    · intro x hx
      rcases List.mem_append.mp hx with hx | hx
      · exact h.queued x hx
      · exact ⟨a, List.mem_singleton.mp hx ▸ hget⟩
    · intro x hx
      rcases List.mem_append.mp hx with hx | hx
      · exact h.reached x hx
      · exact List.mem_singleton.mp hx ▸ hreached
    · intro x hx b hb hgetx
      rcases List.mem_append.mp hx with hx | hx
      · exact h.mapped x hx b hb hgetx
      · rw [List.mem_singleton.mp hx] at hgetx ⊢
        exact hmapped (Option.some.inj (hget.symm.trans hgetx) ▸ hb)
    · rintro x (hx | hx | hx)
      · exact h.known x (.inl hx)
      · rcases List.mem_append.mp hx with hx | hx
        · exact h.known x (.inr (.inl hx))
        · exact h.known x (.inl (List.mem_singleton.mp hx ▸ hhas))
      · exact h.known x (.inr (.inr hx))
    · intro x hx
      have honce := h.once x hx
      show (s.asked ++ [w]).count x = s.called.count x + (s.deferredWorkQueue ++ [w]).count x
      rw [List.count_append, List.count_append]
      omega

theorem Core.runDeferredWork {p' : List ℕ} (hpast : ∀ x ∈ p, x ≠ w → x ∈ p')
    (hsome : s.runDeferredWork w = some t) : Core t p' := by
  rw [State.runDeferredWork] at hsome
  split at hsome
  · cases hsome
  · next actor hget =>
    split at hsome
    · next hmem =>
      cases hsome
      have hrest : ∀ x ∈ s.deferredWorkQueue.erase w, x ∈ s.deferredWorkQueue ∧ x ≠ w :=
        fun x hx => ((List.Nodup.mem_erase_iff h.nodup).mp hx).symm
      refine ⟨h.nodup.erase w, h.live, ?_, ?_, ?_, ?_, ?_, ?_⟩
      · exact fun x hx => h.queued x (hrest x hx).1
      · intro x hx
        exact (h.reached x (hrest x hx).1).imp_left fun hp => hpast x hp (hrest x hx).2
      · intro x hx b hb hgetx
        exact hpast x (h.mapped x (hrest x hx).1 b hb hgetx) (hrest x hx).2
      · rintro x (hx | hx | hx)
        · exact h.known x (.inl hx)
        · exact h.known x (.inr (.inl hx))
        · rcases List.mem_append.mp hx with hx | hx
          · exact h.known x (.inr (.inr hx))
          · exact h.known x (.inl (Dict.has_iff.mpr ⟨actor, List.mem_singleton.mp hx ▸ hget⟩))
      · intro x hx
        have honce := h.once x hx
        show s.asked.count x = (s.called ++ [w]).count x + (s.deferredWorkQueue.erase w).count x
        rw [List.count_append, List.count_erase]
        -- the work that runs was once in the queue
        by_cases heq : x = w
        · have hone := List.count_eq_one_of_mem h.nodup hmem
          rw [heq] at honce ⊢
          rw [List.count_singleton_self, if_pos (beq_self_eq_true w)]
          omega
        · rw [List.count_singleton, if_neg (by simpa using fun h' : w = x => heq h'.symm)]
          omega
      · show (if actor ∈ s.destroyed then s.late ++ [w] else s.late) = []
        rw [if_neg (h.live w actor hget)]
        exact h.late
    · cases hsome

theorem notMem_of_runDeferredWork (hnone : s.runDeferredWork w = none) :
    w ∉ s.deferredWorkQueue := by
  intro hw
  obtain ⟨a, hget⟩ := h.queued w hw
  rw [State.runDeferredWork, hget] at hnone
  simp [hw] at hnone

theorem Core.runDeferredWorkReturns : Core s.runDeferredWorkReturns p := by
  rw [State.runDeferredWorkReturns]
  split
  · next hempty =>
    refine ⟨h.nodup, h.live, h.queued, ?_, h.mapped, h.known, h.once, h.late⟩
    intro w hw
    rw [hempty.1] at hw
    cases hw
  · exact h

theorem Core.onDestroy (w : ℕ) : Core (s.onDestroy w) p := by
  have hrest : ∀ x ∈ s.deferredWorkQueue.erase w, x ∈ s.deferredWorkQueue ∧ x ≠ w :=
    fun x hx => ((List.Nodup.mem_erase_iff h.nodup).mp hx).symm
  have hget : ∀ x a, (s.deferredWorkData.erase w).get? x = some a →
      x ≠ w ∧ s.deferredWorkData.get? x = some a := fun x a hx =>
    Dict.mem_erase.mp (Dict.get?_eq_some.mp hx) |>.imp_right Dict.get?_eq_some.mpr
  have hhas : ∀ x, (s.deferredWorkData.erase w).has x → x ≠ w ∧ s.deferredWorkData.has x := by
    intro x hx
    obtain ⟨a, ha⟩ := Dict.has_iff.mp hx
    exact ⟨(hget x a ha).1, Dict.has_iff.mpr ⟨a, (hget x a ha).2⟩⟩
  refine ⟨h.nodup.erase w, ?_, ?_, ?_, ?_, ?_, ?_, h.late⟩
  · exact fun x a hx => h.live x a (hget x a hx).2
  · intro x hx
    obtain ⟨a, ha⟩ := h.queued x (hrest x hx).1
    exact ⟨a, (Dict.get?_erase_of_ne _ (hrest x hx).2).trans ha⟩
  · exact fun x hx => h.reached x (hrest x hx).1
  · exact fun x hx a ha hx' => h.mapped x (hrest x hx).1 a ha (hget x a hx').2
  · exact fun x hx => h.known x (hx.imp_left fun hx => (hhas x hx).2)
  · intro x hx
    show s.asked.count x = s.called.count x + (s.deferredWorkQueue.erase w).count x
    rw [List.count_erase_of_ne (hhas x hx).1]
    exact h.once x (hhas x hx).2

end

end Queue

/-! ## The two loops -/

section Loops

theorem runDeferredWork_frame (hsome : s.runDeferredWork w = some t) :
    t.beforeRedrawQueue = s.beforeRedrawQueue ∧ t.laters = s.laters ∧ t.sources = s.sources ∧
      t.deferredTimeoutId = s.deferredTimeoutId := by
  rw [State.runDeferredWork] at hsome
  split at hsome
  · cases hsome
  · split at hsome
    · cases hsome
      exact ⟨rfl, rfl, rfl, rfl⟩
    · cases hsome

/-- Induction on the entries that are left. -/
theorem Inv.runBeforeRedrawQueue (i : ℕ) (h : Core s p) (hdrop : s.beforeRedrawQueue.drop i = p)
    (hlaters : s.laters = 0)
    (htimer : s.sources = if s.deferredTimeoutId = 0 then [] else [s.deferredTimeoutId]) :
    Inv (s.runBeforeRedrawQueue i p) := by
  induction p generalizing i with
  | nil =>
    refine ⟨?_, hlaters, htimer⟩
    have hahead : (s.runBeforeRedrawQueue i []).ahead = [] := ite_self _
    rw [hahead]
    exact h.redraw _ _ _
  | cons workId workIds ih =>
    have hnext : s.beforeRedrawQueue.drop (i + 1) = workIds := by
      rw [← List.drop_drop, hdrop]
      rfl
    rw [State.runBeforeRedrawQueue]
    split
    · next hnone => exact ih (i + 1) (h.skip (notMem_of_runDeferredWork h hnone)) hnext
    · next t hsome =>
      obtain ⟨hqueue, hl, hsources, hid⟩ := runDeferredWork_frame hsome
      have hcore : Core t workIds := h.runDeferredWork
        (fun x hx hne => (List.mem_cons.mp hx).resolve_left hne) hsome
      have hlt : i < s.beforeRedrawQueue.length := by
        have hlength := congrArg List.length hdrop
        rw [List.length_drop, List.length_cons] at hlength
        omega
      refine ⟨?_, ⟨hqueue ▸ hlt, hl.trans hlaters⟩, ?_⟩
      · have hahead : ({ t with running := .beforeRedraw i } : State).ahead = workIds := by
          show t.beforeRedrawQueue.drop (i + 1) = workIds
          rw [hqueue, hnext]
        rw [hahead]
        exact hcore.redraw _ _ _
      · show t.sources = _
        rw [hsources, htimer, ← hid]

theorem ahead_of_laters (s : State) (hrun : ∀ i, s.running ≠ .beforeRedraw i)
    (hlaters : s.laters = if s.beforeRedrawQueue = [] then 0 else 1) :
    s.ahead = s.beforeRedrawQueue := by
  unfold State.ahead
  split
  · next i heq => exact absurd heq (hrun i)
  · split at hlaters
    · next hnil => rw [hnil, ite_self]
    · rw [if_pos (by omega)]

theorem Inv.runAllDeferredWork (h : Core s s.beforeRedrawQueue)
    (hlaters : s.laters = if s.beforeRedrawQueue = [] then 0 else 1) (hsources : s.sources = [])
    (hid : s.deferredWorkQueue ≠ [] → s.deferredTimeoutId ≠ 0) : Inv s.runAllDeferredWork := by
  rw [State.runAllDeferredWork]
  split
  · next hnil =>
    refine ⟨?_, hlaters, hsources⟩
    have hahead := ahead_of_laters { s with deferredTimeoutId := 0, running := .idle } (by simp)
      hlaters
    rw [hahead]
    refine ⟨h.nodup, h.live, h.queued, ?_, h.mapped, h.known, h.once, h.late⟩
    intro w hw
    rw [show ({ s with deferredTimeoutId := 0, running := .idle } : State).deferredWorkQueue = []
      from hnil] at hw
    cases hw
  · next workId workIds hqueue =>
    split
    · next hnone =>
      -- what is in the queue has data: the loop does not stand still
      have hnot := notMem_of_runDeferredWork h hnone
      rw [hqueue] at hnot
      exact absurd List.mem_cons_self hnot
    · next t hsome =>
      obtain ⟨hbefore, hl, hs, htimeout⟩ := runDeferredWork_frame hsome
      have hcore : Core t s.beforeRedrawQueue := h.runDeferredWork (fun _ hx _ => hx) hsome
      have hlaters' : t.laters = if t.beforeRedrawQueue = [] then 0 else 1 := by
        rw [hl, hbefore, hlaters]
      refine ⟨?_, hlaters', hs.trans hsources, ?_⟩
      · have hahead := ahead_of_laters { t with running := .timer } (by simp) hlaters'
        rw [hahead]
        rw [← hbefore] at hcore
        exact hcore.redraw _ _ _
      · show t.deferredTimeoutId ≠ 0
        rw [htimeout]
        exact hid (hqueue ▸ List.cons_ne_nil _ _)

end Loops

/-! ## The calls -/

section Calls

theorem Redraw.queueBeforeRedraw (h : Redraw s) (w : ℕ) :
    Redraw (s.queueBeforeRedraw w) ∧ (s.queueBeforeRedraw w).ahead = s.ahead ++ [w] := by
  have hlength : (s.beforeRedrawQueue ++ [w]).length = 1 ↔ s.beforeRedrawQueue = [] := by
    rw [List.length_append, List.length_singleton, ← List.length_eq_zero_iff]
    omega
  have hne : s.beforeRedrawQueue ++ [w] ≠ [] := List.append_ne_nil_of_right_ne_nil _ (by simp)
  have hlaters : (s.queueBeforeRedraw w).laters =
      if s.beforeRedrawQueue = [] then s.laters + 1 else s.laters := if_congr hlength rfl rfl
  cases hrun : s.running with
  | beforeRedraw i =>
    rw [Redraw, hrun] at h
    obtain ⟨hlt, hzero⟩ := h
    have hcons : s.beforeRedrawQueue ≠ [] := List.ne_nil_of_length_pos (by omega)
    rw [if_neg hcons, hzero] at hlaters
    have hahead : ∀ u : State, u.running = .beforeRedraw i →
        u.ahead = u.beforeRedrawQueue.drop (i + 1) := by
      intro u hu
      rw [State.ahead, hu]
    constructor
    · rw [Redraw, show (s.queueBeforeRedraw w).running = .beforeRedraw i from hrun]
      refine ⟨?_, hlaters⟩
      show i < (s.beforeRedrawQueue ++ [w]).length
      rw [List.length_append]
      omega
    · rw [hahead _ hrun, hahead (s.queueBeforeRedraw w) hrun]
      exact List.drop_append_of_le_length (by omega)
  | hangs =>
    rw [Redraw, hrun] at h
    exact h.elim
  | idle | timer =>
    rw [Redraw, hrun] at h
    have hone : (s.queueBeforeRedraw w).laters =
        if (s.queueBeforeRedraw w).beforeRedrawQueue = [] then 0 else 1 := by
      rw [hlaters, h, if_neg (show (s.queueBeforeRedraw w).beforeRedrawQueue ≠ [] from hne)]
      split <;> rfl
    have hrunning : (s.queueBeforeRedraw w).running = s.running := rfl
    refine ⟨?_, ?_⟩
    · rw [Redraw, hrunning, hrun]
      exact hone
    · rw [ahead_of_laters s (by simp [hrun]) h,
        ahead_of_laters (s.queueBeforeRedraw w) (by rw [hrunning, hrun]; simp) hone]
      rfl

theorem push_frame (s : State) (w : ℕ) : (s.push w).ahead = s.ahead ∧ (s.push w).mapped = s.mapped ∧
      (s.push w).deferredTimeoutId = s.deferredTimeoutId ∧ (Redraw (s.push w) ↔ Redraw s) ∧
      (TimerFlag (s.push w) ↔ TimerFlag s) := by
  rw [State.push]
  split
  · exact ⟨rfl, rfl, rfl, Iff.rfl, Iff.rfl⟩
  · exact ⟨rfl, rfl, rfl, Iff.rfl, Iff.rfl⟩

theorem addTimeout_push (s : State) (w : ℕ) : (s.push w).addTimeout = s.addTimeout.push w := by
  have hqueue : s.addTimeout.deferredWorkQueue = s.deferredWorkQueue := rfl
  rw [State.push, State.push, hqueue]
  split
  · rfl
  · rfl

theorem Inv.addTimeout (h : Inv s) (hid : s.deferredTimeoutId = 0) : Inv s.addTimeout where
  core := by
    have hcore := h.core
    refine ⟨hcore.nodup, hcore.live, hcore.queued, ?_, hcore.mapped, hcore.known, hcore.once,
      hcore.late⟩
    exact fun w _ => .inr (Nat.succ_ne_zero _)
  redraw := h.redraw
  timer := by
    have htimer := h.timer
    unfold TimerFlag at htimer ⊢
    split at htimer
    · exact absurd hid htimer.2
    · next hrun =>
      rw [if_pos hid] at htimer
      have hsources : s.addTimeout.sources = [s.lastSource + 1] := by
        show s.sources ++ _ = _
        rw [htimer]
        rfl
      split
      · next hrun' => exact absurd hrun' hrun
      · exact hsources

theorem Inv.queueDeferredWork (h : Inv s) (w : ℕ) : Inv (s.queueDeferredWork w) := by
  rw [State.queueDeferredWork]
  split
  · have hcore := h.core
    exact ⟨⟨hcore.nodup, hcore.live, hcore.queued, hcore.reached, hcore.mapped, hcore.known,
      hcore.once, hcore.late⟩, h.redraw, h.timer⟩
  · next actor hget =>
    obtain ⟨hahead, hmapped, hid, hredraw, htimer⟩ := push_frame s w
    dsimp only
    rw [hmapped, hid]
    split
    · -- the work is queued and a run before the redraw will reach it
      have hcore : Core (s.push w) (s.ahead ++ [w]) :=
        (h.core.mono (List.subset_append_left _ _)).push hget (.inl (by simp)) fun _ => by simp
      obtain ⟨hredraw', hahead'⟩ := (hredraw.mpr h.redraw).queueBeforeRedraw w
      refine ⟨?_, hredraw', htimer.mpr h.timer⟩
      rw [hahead', hahead]
      exact hcore.redraw _ _ _
    · next hnot =>
      split
      · next hzero =>
        rw [addTimeout_push]
        have hadd := h.addTimeout hzero
        obtain ⟨hahead', -, -, hredraw', htimer'⟩ := push_frame s.addTimeout w
        refine ⟨?_, hredraw'.mpr hadd.redraw, htimer'.mpr hadd.timer⟩
        rw [hahead']
        exact hadd.core.push hget (.inr (Nat.succ_ne_zero _)) fun ha => absurd ha hnot
      · next hpending =>
        refine ⟨?_, hredraw.mpr h.redraw, htimer.mpr h.timer⟩
        rw [hahead]
        exact h.core.push hget (.inr hpending) fun ha => absurd ha hnot

theorem Inv.initializeDeferredWork (h : Inv s) (ha : a ∉ s.destroyed) :
    Inv (s.initializeDeferredWork a) := by
  have hcore := h.core
  have hnew : ∀ x, s.deferredWorkData.has x ∨ x ∈ s.asked ∨ x ∈ s.called →
      x ≠ s.deferredWorkSequence + 1 := by
    intro x hx heq
    have hle := hcore.known x hx
    omega
  have hqueue : s.deferredWorkSequence + 1 ∉ s.deferredWorkQueue := fun hmem =>
    hnew _ (.inl (Dict.has_iff.mpr (hcore.queued _ hmem))) rfl
  have hold : ∀ x, x ≠ s.deferredWorkSequence + 1 →
      (s.deferredWorkData.set (s.deferredWorkSequence + 1) a).get? x = s.deferredWorkData.get? x :=
    fun x hx => Dict.get?_set_of_ne _ _ hx
  rw [State.initializeDeferredWork]
  refine Inv.queueDeferredWork (s := { s with
      deferredWorkSequence := s.deferredWorkSequence + 1
      deferredWorkData := s.deferredWorkData.set (s.deferredWorkSequence + 1) a })
    ⟨⟨hcore.nodup, ?_, ?_, hcore.reached, ?_, ?_, ?_, hcore.late⟩, h.redraw, h.timer⟩ _
  · intro x b hx
    rcases Dict.mem_set.mp (Dict.get?_eq_some.mp hx) with ⟨-, rfl⟩ | ⟨-, hmem⟩
    · exact ha
    · exact hcore.live x b (Dict.get?_eq_some.mpr hmem)
  · intro x hx
    obtain ⟨b, hb⟩ := hcore.queued x hx
    exact ⟨b, (hold x fun heq => hqueue (heq ▸ hx)).trans hb⟩
  · intro x hx b hb hget
    exact hcore.mapped x hx b hb ((hold x fun heq => hqueue (heq ▸ hx)).symm.trans hget)
  · intro x hx
    show x ≤ s.deferredWorkSequence + 1
    by_cases heq : x = s.deferredWorkSequence + 1
    · omega
    · have hle := hcore.known x (hx.imp_left fun hhas => by
        obtain ⟨b, hb⟩ := Dict.has_iff.mp hhas
        exact Dict.has_iff.mpr ⟨b, (hold x heq).symm.trans hb⟩)
      omega
  · intro x hx
    show s.asked.count x = s.called.count x + s.deferredWorkQueue.count x
    by_cases heq : x = s.deferredWorkSequence + 1
    · rw [heq, List.count_eq_zero_of_not_mem fun hmem => hnew _ (.inr (.inl hmem)) rfl,
        List.count_eq_zero_of_not_mem fun hmem => hnew _ (.inr (.inr hmem)) rfl,
        List.count_eq_zero_of_not_mem hqueue]
    · obtain ⟨b, hb⟩ := Dict.has_iff.mp hx
      exact hcore.once x (Dict.has_iff.mpr ⟨b, (hold x heq).symm.trans hb⟩)

/-- The handlers of a mapped actor: its queued works are ahead. Induction on the works. -/
theorem foldl_onMapped (h : Redraw s) (ha : a ∈ s.mapped) (ws : List ℕ) :
    ∃ ids n, ws.foldl (fun s w => s.onMapped a w) s =
        { s with beforeRedrawQueue := ids, laters := n } ∧
      Redraw { s with beforeRedrawQueue := ids, laters := n } ∧
      ({ s with beforeRedrawQueue := ids, laters := n } : State).ahead =
        s.ahead ++ ws.filter (· ∈ s.deferredWorkQueue) := by
  induction ws generalizing s with
  | nil => exact ⟨s.beforeRedrawQueue, s.laters, rfl, h, (List.append_nil _).symm⟩
  | cons w ws ih =>
    rw [List.foldl_cons, State.onMapped]
    by_cases hw : w ∈ s.deferredWorkQueue
    · obtain ⟨hredraw, hahead⟩ := h.queueBeforeRedraw w
      obtain ⟨ids, n, hfold, hredraw', hahead'⟩ := ih hredraw ha
      rw [if_pos ⟨ha, hw⟩, hfold]
      refine ⟨ids, n, rfl, hredraw', hahead'.trans ?_⟩
      have hcons : (w :: ws).filter (· ∈ s.deferredWorkQueue) =
          w :: ws.filter (· ∈ s.deferredWorkQueue) := List.filter_cons_of_pos (decide_eq_true hw)
      rw [hahead, List.append_assoc, hcons]
      rfl
    · rw [if_neg fun hboth => hw hboth.2, List.filter_cons_of_neg (by simpa using hw)]
      exact ih h ha

theorem foldl_onMapped_of_notMem (ha : a ∉ s.mapped) (ws : List ℕ) :
    ws.foldl (fun s w => s.onMapped a w) s = s := by
  induction ws with
  | nil => rfl
  | cons w ws ih =>
    rw [List.foldl_cons, State.onMapped, if_neg fun hboth => ha hboth.1]
    exact ih

theorem mem_works : w ∈ s.works a ↔ s.deferredWorkData.get? w = some a := by
  rw [Dict.get?_eq_some, State.works, List.mem_map]
  constructor
  · rintro ⟨⟨w', a'⟩, hmem, rfl⟩
    rw [List.mem_filter, decide_eq_true_iff] at hmem
    exact hmem.2 ▸ hmem.1
  · intro hmem
    exact ⟨(w, a), List.mem_filter.mpr ⟨hmem, decide_eq_true rfl⟩, rfl⟩

theorem Inv.setMapped (h : Inv s) (mapped : Bool) : Inv (s.setMapped a mapped) := by
  have hcore := h.core
  rw [State.setMapped]
  cases mapped with
  | false =>
    rw [if_neg (by decide), foldl_onMapped_of_notMem (by simp)]
    refine ⟨⟨hcore.nodup, hcore.live, hcore.queued, hcore.reached, ?_, hcore.known, hcore.once,
      hcore.late⟩, h.redraw, h.timer⟩
    exact fun w hw b hb => hcore.mapped w hw b (List.mem_of_mem_filter hb)
  | true =>
    rw [if_pos rfl]
    obtain ⟨ids, n, hfold, hredraw, hahead⟩ :=
      foldl_onMapped (s := { s with mapped := s.mapped ++ [a] }) (a := a) h.redraw (by simp)
        (s.works a)
    have hworks : ({ s with mapped := s.mapped ++ [a] } : State).works a = s.works a := rfl
    rw [hworks, hfold]
    refine ⟨?_, hredraw, h.timer⟩
    rw [hahead]
    have hmono := hcore.mono (List.subset_append_left s.ahead
      ((s.works a).filter (· ∈ s.deferredWorkQueue)))
    refine ⟨hmono.nodup, hmono.live, hmono.queued, hmono.reached, ?_, hmono.known, hmono.once,
      hmono.late⟩
    intro w hw b hb hget
    rcases List.mem_append.mp hb with hb | hb
    · exact hmono.mapped w hw b hb hget
    · rw [List.mem_singleton.mp hb] at hget
      exact List.mem_append_right _ (List.mem_filter.mpr ⟨mem_works.mpr hget, decide_eq_true hw⟩)

/-- The handlers of a destroyed actor. Induction on the works. -/
theorem Inv.foldl_onDestroy (h : Inv s) (ws : List ℕ) :
    Inv (ws.foldl onDestroy s) ∧ (ws.foldl onDestroy s).destroyed = s.destroyed ∧
      ∀ w b, (ws.foldl onDestroy s).deferredWorkData.get? w = some b →
        w ∉ ws ∧ s.deferredWorkData.get? w = some b := by
  induction ws generalizing s with
  | nil => exact ⟨h, rfl, fun w b hget => ⟨List.not_mem_nil, hget⟩⟩
  | cons x ws ih =>
    obtain ⟨hinv, hdestroyed, hdata⟩ :=
      ih (s := s.onDestroy x) ⟨h.core.onDestroy x, h.redraw, h.timer⟩
    refine ⟨hinv, hdestroyed, fun w b hget => ?_⟩
    obtain ⟨hnot, hold⟩ := hdata w b hget
    obtain ⟨hne, hmem⟩ := Dict.mem_erase.mp (Dict.get?_eq_some.mp hold)
    exact ⟨List.not_mem_cons_of_ne_of_not_mem hne hnot, Dict.get?_eq_some.mpr hmem⟩

theorem Inv.destroy (h : Inv s) (a : ℕ) : Inv (s.destroy a) := by
  obtain ⟨hinv, hdestroyed, hdata⟩ := h.foldl_onDestroy (s.works a)
  have hcore := hinv.core
  refine ⟨⟨hcore.nodup, ?_, hcore.queued, hcore.reached, ?_, hcore.known, hcore.once, hcore.late⟩,
    hinv.redraw, hinv.timer⟩
  · intro w b hget hmem
    rcases List.mem_append.mp hmem with hmem | hmem
    · exact hcore.live w b hget hmem
    · -- the works of the actor itself are gone
      obtain ⟨hnot, hold⟩ := hdata w b hget
      exact hnot (mem_works.mpr (List.mem_singleton.mp hmem ▸ hold))
  · exact fun w hw b hb => hcore.mapped w hw b (List.mem_of_mem_filter hb)

end Calls

/-! ## All runs -/

def Quiet (s : State) : Event → Prop
  | .initializeWork actor => actor ∉ s.destroyed
  | .throws => False
  | _ => True

instance (s : State) (e : Event) : Decidable (Quiet s e) := by
  unfold Quiet
  split <;> infer_instance

theorem Inv.beforeRedraw (h : Inv s) (hidle : s.running = .idle) (hpos : 0 < s.laters) :
    Inv ({ s with laters := s.laters - 1 }.runBeforeRedrawQueue 0 s.beforeRedrawQueue) := by
  have hredraw := h.redraw
  have htimer := h.timer
  rw [Redraw, hidle] at hredraw
  rw [TimerFlag, hidle] at htimer
  have hahead := ahead_of_laters s (by simp [hidle]) hredraw
  have hcore := h.core
  rw [hahead] at hcore
  have hone : s.laters - 1 = 0 := by
    dsimp only at hredraw
    split at hredraw <;> omega
  exact Inv.runBeforeRedrawQueue 0 (hcore.redraw _ _ _) rfl hone htimer

theorem Inv.timerFires {source : ℕ} (h : Inv s) (hidle : s.running = .idle)
    (hsource : source ∈ s.sources) :
    Inv { s with sources := s.sources.erase source }.runAllDeferredWork := by
  have hredraw := h.redraw
  have htimer := h.timer
  rw [Redraw, hidle] at hredraw
  rw [TimerFlag, hidle] at htimer
  have hcore := h.core
  rw [ahead_of_laters s (by simp [hidle]) hredraw] at hcore
  -- the source is the one that the id names
  dsimp only at htimer
  split at htimer
  · rw [htimer] at hsource
    cases hsource
  · next hne =>
    rw [htimer, List.mem_singleton] at hsource
    refine Inv.runAllDeferredWork ?_ hredraw ?_ fun _ => hne
    · exact ⟨hcore.nodup, hcore.live, hcore.queued, hcore.reached, hcore.mapped, hcore.known,
        hcore.once, hcore.late⟩
    · show s.sources.erase source = []
      rw [htimer, hsource, List.erase_cons_head]

theorem Inv.returns (h : Inv s) (hstep : step s .returns = some t) : Inv t := by
  have hredraw := h.redraw
  have htimer := h.timer
  have hcore := h.core.runDeferredWorkReturns
  have hframe : s.runDeferredWorkReturns.beforeRedrawQueue = s.beforeRedrawQueue ∧
      s.runDeferredWorkReturns.laters = s.laters := by
    rw [State.runDeferredWorkReturns]
    split <;> exact ⟨rfl, rfl⟩
  cases hrun : s.running with
  | beforeRedraw i =>
    rw [Redraw, hrun] at hredraw
    rw [TimerFlag, hrun] at htimer
    have hahead : s.ahead = s.beforeRedrawQueue.drop (i + 1) := by rw [State.ahead, hrun]
    rw [hahead] at hcore
    rw [DeferredWork.step, hrun] at hstep
    cases hstep
    rw [← hframe.1] at hcore
    refine Inv.runBeforeRedrawQueue (i + 1) hcore rfl (hframe.2.trans hredraw.2) ?_
    rw [State.runDeferredWorkReturns]
    split
    · next hempty =>
      dsimp only at htimer ⊢
      rw [htimer, if_neg (by omega), if_pos rfl, List.erase_cons_head]
    · exact htimer
  | timer =>
    rw [Redraw, hrun] at hredraw
    rw [TimerFlag, hrun] at htimer
    rw [ahead_of_laters s (by simp [hrun]) hredraw] at hcore
    rw [DeferredWork.step, hrun] at hstep
    cases hstep
    rw [← hframe.1] at hcore
    refine Inv.runAllDeferredWork hcore (by rw [hframe.1, hframe.2, hredraw]) ?_ ?_
    · rw [State.runDeferredWorkReturns]
      split
      · dsimp only
        rw [htimer.1]
        rfl
      · exact htimer.1
    · rw [State.runDeferredWorkReturns]
      split
      · next hempty => exact fun hne => absurd hempty.1 hne
      · exact fun _ => htimer.2
  | idle | hangs =>
    rw [DeferredWork.step, hrun] at hstep
    cases hstep

theorem Inv.step (e : Event) (h : Inv s) (hok : Quiet s e) (hstep : step s e = some t) : Inv t := by
  cases e with
  | initializeWork actor =>
    cases hstep
    exact h.initializeDeferredWork hok
  | queue workId =>
    cases hstep
    exact h.queueDeferredWork workId
  | setMapped actor mapped =>
    obtain ⟨-, heq⟩ := Option.ite_none_right_eq_some.mp hstep
    cases heq
    exact h.setMapped mapped
  | destroy actor =>
    obtain ⟨-, heq⟩ := Option.ite_none_right_eq_some.mp hstep
    cases heq
    exact h.destroy actor
  | beforeRedraw =>
    obtain ⟨⟨hidle, hpos⟩, heq⟩ := Option.ite_none_right_eq_some.mp hstep
    cases heq
    exact h.beforeRedraw hidle hpos
  | timer source =>
    obtain ⟨⟨hidle, hsource⟩, heq⟩ := Option.ite_none_right_eq_some.mp hstep
    cases heq
    exact h.timerFires hidle hsource
  | returns => exact h.returns hstep
  | throws => exact hok.elim

theorem mem_initializeDeferredWork (s : State) (a : ℕ) :
    s.deferredWorkSequence + 1 ∈ (s.initializeDeferredWork a).deferredWorkQueue ∧
      (s.initializeDeferredWork a).deferredWorkData.get? (s.deferredWorkSequence + 1) = some a ∧
      (s.initializeDeferredWork a).destroyed = s.destroyed := by
  have hpush : ∀ (u : State) (w : ℕ), w ∈ (u.push w).deferredWorkQueue ∧
      (u.push w).deferredWorkData = u.deferredWorkData ∧ (u.push w).destroyed = u.destroyed := by
    intro u w
    rw [State.push]
    split
    · next hw => exact ⟨hw, rfl, rfl⟩
    · exact ⟨by simp, rfl, rfl⟩
  have hset := Dict.get?_set_self s.deferredWorkData (s.deferredWorkSequence + 1) a
  have hadded := hpush { s with
    deferredWorkSequence := s.deferredWorkSequence + 1
    deferredWorkData := s.deferredWorkData.set (s.deferredWorkSequence + 1) a }
    (s.deferredWorkSequence + 1)
  rw [State.initializeDeferredWork, State.queueDeferredWork]
  split
  · next hnone => exact absurd (hset.symm.trans hnone) (Option.some_ne_none a)
  · dsimp only
    rw [← hset]
    split
    · exact ⟨hadded.1, congrArg (Dict.get? · _) hadded.2.1, hadded.2.2⟩
    · split
      · exact ⟨hadded.1, congrArg (Dict.get? · _) hadded.2.1, hadded.2.2⟩
      · exact ⟨hadded.1, congrArg (Dict.get? · _) hadded.2.1, hadded.2.2⟩

theorem Inv.quiet (e : Event) (h : Inv s) (hstep : DeferredWork.step s e = some t) (hlaw : Law t)
    (hfree : Unblocked t) : Quiet s e := by
  cases e with
  | initializeWork actor =>
    cases hstep
    obtain ⟨hmem, hget, hdestroyed⟩ := mem_initializeDeferredWork s actor
    obtain ⟨b, hb, hlive⟩ := hlaw.live _ hmem
    obtain rfl := Option.some.inj (hget.symm.trans hb)
    rw [hdestroyed] at hlive
    exact hlive
  | throws =>
    have hredraw := h.redraw
    have htimer := h.timer
    cases hrun : s.running with
    | beforeRedraw i =>
      rw [Redraw, hrun] at hredraw
      rw [DeferredWork.step, hrun] at hstep
      cases hstep
      have hne := List.ne_nil_of_length_pos (Nat.lt_of_le_of_lt (Nat.zero_le i) hredraw.1)
      rcases hfree.redraw hne with hpos | ⟨j, hj⟩
      · exact absurd hredraw.2 (Nat.ne_of_gt hpos)
      · cases hj
    | timer =>
      rw [TimerFlag, hrun] at htimer
      rw [DeferredWork.step, hrun] at hstep
      cases hstep
      rcases hfree.timer htimer.2 with hne | hidle
      · exact absurd htimer.1 hne
      · cases hidle
    | idle | hangs =>
      rw [DeferredWork.step, hrun] at hstep
      cases hstep
  | queue | setMapped | destroy | beforeRedraw | timer | returns => exact trivial

/-- **Every work is reached.** All along a run each queued work is reached, and nothing blocks
further work, if and only if no callback throws and no actor is destroyed when its work is
initialized. -/
theorem run_reached_iff {es : List Event} (hrun : Runs.run step State.new es = some t) :
    Runs.Always step (fun s => Law s ∧ Unblocked s) State.new es ↔
      Runs.Allowed step Quiet State.new es :=
  Runs.always_iff_allowed_of_kept Inv.new (fun _ h => ⟨h.law, h.unblocked⟩)
    (fun _ e _ h hok hstep => h.step e hok hstep)
    (fun _ e _ h hstep hP => h.quiet e hstep hP.1 hP.2) hrun

/-- A work queues itself while its actor is mapped, and another one waits for the timeout; the first
actor is destroyed by the second work. -/
theorem run_reached_mapped :
    let es : List Event := [.setMapped 0 true, .initializeWork 0, .initializeWork 1, .beforeRedraw,
      .queue 1, .returns, .returns, .setMapped 0 false, .queue 1, .timer 1, .destroy 0, .returns]
    ∃ t, Runs.run step State.new es = some t ∧
      Runs.Always step (fun s => Law s ∧ Unblocked s) State.new es := by
  intro es
  obtain ⟨t, hrun⟩ : ∃ t, Runs.run step State.new es = some t :=
    Option.isSome_iff_exists.mp (by decide)
  exact ⟨t, hrun, (run_reached_iff hrun).mpr (by decide)⟩

def throwsBeforeRedraw : List Event :=
  [.setMapped 0 true, .initializeWork 0, .initializeWork 0, .beforeRedraw, .throws]

def throwsAtTimeout : List Event := [.initializeWork 0, .timer 1, .throws, .queue 1]

theorem not_law_of_lost {es : List Event} {w : ℕ}
    (hlost : (Runs.run step State.new es).map (fun t => (decide (w ∈ t.deferredWorkQueue), t.ahead,
      t.sources, t.running)) = some (true, [], [], .idle)) :
    ∃ t, Runs.run step State.new es = some t ∧ ¬ Law t := by
  obtain ⟨t, hrun, hstate⟩ := Option.map_eq_some_iff.mp hlost
  obtain ⟨hmem, hrest⟩ := Prod.mk.inj hstate
  obtain ⟨hahead, hrest⟩ := Prod.mk.inj hrest
  obtain ⟨hsources, hrunning⟩ := Prod.mk.inj hrest
  refine ⟨t, hrun, fun hlaw => ?_⟩
  rcases hlaw.reached w (of_decide_eq_true hmem) with hw | hne | htimer
  · rw [hahead] at hw
    cases hw
  · exact hne hsources
  · rw [hrunning] at htimer
    cases htimer

theorem not_run_reached : (∃ t, Runs.run step State.new throwsBeforeRedraw = some t ∧ ¬ Law t) ∧
      ∃ t, Runs.run step State.new throwsAtTimeout = some t ∧ ¬ Law t := by
  constructor
  · exact not_law_of_lost (w := 2) (by decide)
  · exact not_law_of_lost (w := 1) (by decide)

end DeferredWork
