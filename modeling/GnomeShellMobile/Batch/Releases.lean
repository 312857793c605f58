import GnomeShellMobile.Batch.Steps

/-!
# Batch — releases, and what the functions do

* `Inv.release`: a release that is not the last one changes a number; the last one puts all that
  have waited on the stack.
* `Inv.callHandler`: a handler takes the place of its connection.
* `Inv.step`, `Inv.of_reachable`: the invariant after every step, and after every run.
-/

namespace Batch

open State

variable {η : Type} [DecidableEq η] {top : Task} {s t : State η} {p q : Path} {i j : ℕ}
  {c c' : Call η} {rest : List (Call η)} {x : Hold η}

theorem Inv.same_ok (h : Inv top s) {d : Call η} (hd : d ∈ s.stack) (hg : Grows s t)
    (hindex : t.index = s.index) (hran : t.ran = s.ran) (hresults : t.results = s.results)
    (hhandler : ∀ e, d = .handler e → e ∈ s.connections → s.acquisitions e.hold ≤ 0 →
      e ∈ t.connections) : d.Ok top t := by
  have hok := h.calls d hd
  refine hok.mono h.toCore hg (fun _ _ => by rw [hindex]) (fun _ _ _ hmem => by rwa [hran] at hmem)
    (fun _ _ _ => by rw [hresults]) ?_
  rintro e rfl
  refine ⟨hhandler e rfl hok.1 hok.2, hg.released _ (h.connected_made hok.1)⟩

/-! ## `release()` -/

theorem State.Grows.release (n : ℤ) (hn : n ≤ s.acquisitions x) (calls : List (Call η))
    (emitted : List (Hold η)) :
    Grows s { s.setAcquisitions x n with stack := calls, emitted := emitted } where
  started _ hp := hp
  ran _ hq := hq
  results _ _ h := h
  released y _ hy := by
    show Function.update s.acquisitions x n y ≤ 0
    rw [Function.update_apply]
    split
    · rename_i heq
      rw [heq] at hy
      omega
    · exact hy
  waits _ h _ _ := h

theorem Core.tokens_release (h : Core top s) (hstack : s.stack = .release x :: rest) (p : Path) :
    s.acquisitions (.batch p) =
      rest.countP (Call.belongs p) + (if x = .batch p then 1 else 0) + s.live (one (Call.belongs p)) := by
  rw [h.tokens p, count_of_stack hstack, List.countP_cons]
  cases x with
  | own x => simp [Call.belongs]
  | batch q =>
    simp only [Call.belongs, decide_eq_true_eq, Hold.batch.injEq]
    split <;> rfl

omit [DecidableEq η] in
theorem count_drives_release (hstack : s.stack = .release x :: rest) (p : Path) :
    s.count (Call.drives p) = rest.countP (Call.drives p) + s.live (one (Call.drives p)) := by
  rw [count_of_stack hstack, List.countP_cons]
  simp [Call.drives]

theorem Core.release_more (h : Core top s) (hstack : s.stack = .release x :: rest)
    (hx : s.Made x) (hone : s.acquisitions x ≠ 1) :
    Core top ((s.setAcquisitions x (s.acquisitions x - 1)).setStack rest) := by
  have hg : Grows s ((s.setAcquisitions x (s.acquisitions x - 1)).setStack rest) :=
    State.Grows.release _ (by omega) rest s.emitted
  have hlive : ∀ f : Call η → Bool,
      (s.setAcquisitions x (s.acquisitions x - 1)).live (one f) = s.live (one f) :=
    fun _ => live_setAcquisitions (by omega)
  have hacq : ∀ y, Function.update s.acquisitions x (s.acquisitions x - 1) y =
      s.acquisitions y - if x = y then 1 else 0 := by
    intro y
    rw [Function.update_apply]
    by_cases heq : y = x
    · simp [heq]
    · rw [if_neg heq, if_neg (Ne.symm heq), sub_zero]
  exact {
    __ := h
    fresh := by
      intro q hq
      have hne : x ≠ .batch q := by
        rintro rfl
        exact hx hq
      show Function.update s.acquisitions x (s.acquisitions x - 1) (.batch q) = 0 ∧ _
      rw [hacq, if_neg hne, sub_zero]
      exact h.fresh q hq
    tokens := by
      intro q
      show Function.update s.acquisitions x (s.acquisitions x - 1) (.batch q) = _
      rw [hacq, count_setStack, hlive, h.tokens_release hstack q]
      push_cast
      omega
    working := by
      intro q hq
      rw [count_setStack, hlive, ← count_drives_release hstack]
      exact h.working q hq
    finished := by
      intro q hq
      rw [count_setStack, hlive, ← count_drives_release hstack]
      exact h.finished q hq
    waits := by
      intro d hd
      have hwaits := h.waits d hd
      refine ⟨hwaits.result, hwaits.pending.imp (fun hpos => ?_) fun hmem => ?_, hwaits.next⟩
      · show 0 < Function.update s.acquisitions x (s.acquisitions x - 1) d.hold
        rw [hacq]
        split
        · rename_i heq
          rw [← heq] at hpos ⊢
          omega
        · omega
      · rw [hstack] at hmem
        exact mem_tail_of_handler rfl hmem
    emission := by
      have := h.emission
      rwa [hstack] at this
    results := fun q r hr => ⟨(h.results q r hr).1, (h.results q r hr).2.mono hg⟩
    before := fun q k hk j hj hn => (h.before q k hk j hj hn).mono hg fun _ => h.made
    emitted := by
      intro y hy
      have hy' : s.Made y := by
        cases y with
        | own y => exact trivial
        | batch q => exact hy
      show s.emitted.count y =
        if Function.update s.acquisitions x (s.acquisitions x - 1) y ≤ 0 then 1 else 0
      rw [hacq, h.emitted y hy']
      refine if_congr ?_ rfl rfl
      by_cases heq : x = y
      · subst heq
        rw [if_pos rfl]
        omega
      · rw [if_neg heq, sub_zero] }

/-- **The last release.** All that have waited for the hold are called. -/
theorem Core.release_last (h : Core top s) (hstack : s.stack = .release x :: rest)
    (hx : s.Made x) (hone : s.acquisitions x = 1)
    (hcalled : ∀ d, .handler d ∈ rest → s.acquisitions d.hold ≤ 0) :
    Core top ((s.setAcquisitions x 0).emit x rest) := by
  have hg : Grows s ((s.setAcquisitions x 0).emit x rest) :=
    State.Grows.release 0 (by omega) (s.handlers x ++ rest) (x :: s.emitted)
  have hcount : ∀ f : Call η → Bool, ((s.setAcquisitions x 0).emit x rest).count f =
      rest.countP f + s.live (one f) := by
    intro f
    show (s.handlers x ++ rest).countP f + (s.setAcquisitions x 0).live (one f) = _
    have := countP_released (f := f) hone
    rw [List.countP_append]
    omega
  have hacq : ∀ y, Function.update s.acquisitions x 0 y =
      s.acquisitions y - if x = y then 1 else 0 := by
    intro y
    rw [Function.update_apply]
    by_cases heq : y = x
    · rw [if_pos heq, if_pos heq.symm, heq, hone, sub_self]
    · rw [if_neg heq, if_neg (Ne.symm heq), sub_zero]
  have hmem : ∀ d, Call.handler d ∈ s.stack → Call.handler d ∈ rest := by
    intro d hd
    rw [hstack] at hd
    exact mem_tail_of_handler rfl hd
  exact {
    __ := h
    fresh := by
      intro q hq
      have hne : x ≠ .batch q := by
        rintro rfl
        exact hx hq
      obtain ⟨hzero, hnot⟩ := h.fresh q hq
      refine ⟨?_, fun hmem => ?_⟩
      · show Function.update s.acquisitions x 0 (.batch q) = 0
        rw [hacq, if_neg hne, sub_zero, hzero]
      · rcases List.mem_cons.mp hmem with heq | hmem
        · exact hne heq.symm
        · exact hnot hmem
    tokens := by
      intro q
      show Function.update s.acquisitions x 0 (.batch q) =
        (((s.setAcquisitions x 0).emit x rest).count (Call.belongs q) : ℕ)
      rw [hacq, hcount, h.tokens_release hstack q]
      push_cast
      omega
    working := by
      intro q hq
      rw [hcount, ← count_drives_release hstack]
      exact h.working q hq
    finished := by
      intro q hq
      rw [hcount, ← count_drives_release hstack]
      exact h.finished q hq
    waits := by
      intro d hd
      have hwaits := h.waits d hd
      refine ⟨hwaits.result, ?_, hwaits.next⟩
      by_cases heq : d.hold = x
      · refine .inr (List.mem_append_left _ (List.mem_map_of_mem ?_))
        exact List.mem_filter.mpr ⟨hd, decide_eq_true heq⟩
      · refine hwaits.pending.imp (fun hpos => ?_) fun hd => List.mem_append_right _ (hmem d hd)
        show 0 < Function.update s.acquisitions x 0 d.hold
        rwa [Function.update_of_ne heq]
    emission := by
      have hhandlers : (s.handlers x).filterMap Call.handler? =
          s.connections.filter (·.hold = x) := by
        rw [handlers, List.filterMap_map]
        exact List.filterMap_some
      have hold := h.emission
      rw [hstack] at hold
      show ((s.handlers x ++ rest).filterMap Call.handler?).Nodup
      rw [List.filterMap_append, hhandlers]
      refine (h.distinct.filter _).append hold fun d hd hd' => ?_
      -- a handler that is called already is one of a hold that is released
      obtain ⟨c, hc, hcd⟩ := List.mem_filterMap.mp hd'
      have hle : s.acquisitions d.hold ≤ 0 := by
        cases c with
        | handler e =>
          cases hcd
          exact hcalled _ hc
        | _ => cases hcd
      rw [of_decide_eq_true (List.mem_filter.mp hd).2, hone] at hle
      omega
    results := fun q r hr => ⟨(h.results q r hr).1, (h.results q r hr).2.mono hg⟩
    before := fun q k hk j hj hn => (h.before q k hk j hj hn).mono hg fun _ => h.made
    emitted := by
      intro y hy
      have hy' : s.Made y := by
        cases y with
        | own y => exact trivial
        | batch q => exact hy
      show (x :: s.emitted).count y = if Function.update s.acquisitions x 0 y ≤ 0 then 1 else 0
      have hold := h.emitted y hy'
      rw [hacq, List.count_cons]
      by_cases heq : x = y
      · subst heq
        rw [if_neg (by omega)] at hold
        rw [hold, if_pos (beq_self_eq_true x), if_pos rfl, if_pos (by omega)]
      · rw [hold, if_neg (mt beq_iff_eq.mp heq), if_neg heq, sub_zero, Nat.add_zero] }

theorem Inv.release (h : Inv top s) (hstack : s.stack = .release x :: rest) :
    Inv top (s.release x rest) := by
  have hx : s.Made x := h.calls (.release x) (hstack ▸ List.mem_cons_self)
  have hmem : ∀ d ∈ rest, d ∈ s.stack := fun d hd => hstack ▸ List.mem_cons_of_mem _ hd
  have hself : (s.setAcquisitions x (s.acquisitions x - 1)).acquisitions x =
      s.acquisitions x - 1 := Function.update_self ..
  rw [State.release]
  split
  · rename_i hzero
    rw [hself] at hzero
    rw [hzero]
    have hone : s.acquisitions x = 1 := by omega
    refine ⟨h.toCore.release_last hstack hx hone fun d hd => (h.calls _ (hmem _ hd)).2, ?_⟩
    intro d hd
    rcases List.mem_append.mp hd with hd | hd
    · obtain ⟨e, he, rfl⟩ := List.mem_map.mp hd
      obtain ⟨he, hhold⟩ := List.mem_filter.mp he
      refine ⟨he, ?_⟩
      show Function.update s.acquisitions x 0 e.hold ≤ 0
      rw [of_decide_eq_true hhold, Function.update_self]
    · exact h.same_ok (hmem d hd) (.release 0 (by omega) (s.handlers x ++ rest) (x :: s.emitted))
        rfl rfl rfl fun _ _ he _ => he
  · rename_i hzero
    rw [hself] at hzero
    have hone : s.acquisitions x ≠ 1 := by omega
    refine ⟨h.toCore.release_more hstack hx hone, fun d hd => ?_⟩
    exact h.same_ok (hmem d hd) (.release (s.acquisitions x - 1) (by omega) rest s.emitted)
      rfl rfl rfl fun _ _ he _ => he

/-! ## The handlers -/

theorem State.Grows.disconnect {d : Connection η} (hd : s.acquisitions d.hold ≤ 0)
    (calls : List (Call η)) : Grows s ((s.disconnect d).setStack calls) where
  started _ h := h
  ran _ h := h
  results _ _ h := h
  released _ _ h := h
  waits e he _ hpos := by
    refine (List.mem_erase_of_ne ?_).mpr he
    rintro rfl
    exact absurd hpos (not_lt.mpr hd)

theorem Core.disconnect {d : Connection η} (h : Core top s) (hstack : s.stack = .handler d :: rest)
    (hd : s.acquisitions d.hold ≤ 0) (hbelongs : ∀ p, c.belongs p = (Call.handler d).belongs p)
    (hdrives : ∀ p, c.drives p = (Call.handler d).drives p) (hc : c.handler? = none) :
    Core top ((s.disconnect d).setStack (c :: rest)) := by
  have hg := State.Grows.disconnect hd (c :: rest)
  have hcount : ∀ f : Call η → Bool, f c = f (.handler d) →
      ((s.disconnect d).setStack (c :: rest)).count f = s.count f := by
    intro f hf
    rw [count_setStack, count_of_stack hstack, live_disconnect, List.countP_cons,
      List.countP_cons, hf]
    exact Bool.eq_false_iff.mpr fun hpos => not_lt.mpr hd (isAcquired_iff.mp hpos)
  have hemission := h.emission
  rw [hstack] at hemission
  exact {
    __ := h
    tokens := fun p => (h.tokens p).trans (congrArg _ (hcount _ (hbelongs p)).symm)
    working := fun p hp => (hcount _ (hdrives p)).trans (h.working p hp)
    finished := fun p hp => (hcount _ (hdrives p)).trans (h.finished p hp)
    waits := by
      intro e he
      obtain ⟨hne, he⟩ := h.distinct.mem_erase_iff.mp he
      have hwaits := h.waits e he
      refine ⟨hwaits.result, hwaits.pending.imp_right fun hmem => ?_, hwaits.next⟩
      rw [hstack] at hmem
      rcases List.mem_cons.mp hmem with heq | hmem
      · cases heq
        exact absurd rfl hne
      · exact List.mem_cons_of_mem _ hmem
    emission := by
      rw [stack_setStack, List.filterMap_cons_none hc]
      exact (List.nodup_cons.mp hemission).2
    distinct := h.distinct.erase d
    ids := fun e he => h.ids e (List.mem_of_mem_erase he)
    results := fun q r hr => ⟨(h.results q r hr).1, (h.results q r hr).2.mono hg⟩
    before := fun p k hk j hj hn => (h.before p k hk j hj hn).mono hg fun _ => h.made
    emitted := by
      intro x hx
      refine h.emitted x ?_
      cases x with
      | own x => exact trivial
      | batch q => exact hx }

theorem Inv.callHandler {d : Connection η} (h : Inv top s)
    (hstack : s.stack = .handler d :: rest) : Inv top (s.callHandler d rest) := by
  obtain ⟨hmem, hle⟩ : d ∈ s.connections ∧ s.acquisitions d.hold ≤ 0 :=
    h.calls (.handler d) (hstack ▸ List.mem_cons_self)
  have hwaits := h.waits d hmem
  have hrest : ∀ calls : List (Call η), ∀ e ∈ rest, e.Ok top ((s.disconnect d).setStack calls) := by
    intro calls e he
    refine h.same_ok (hstack ▸ List.mem_cons_of_mem _ he) (.disconnect hle calls) rfl rfl rfl ?_
    rintro e rfl hmem' -
    refine (List.mem_erase_of_ne ?_).mpr hmem'
    rintro rfl
    have := h.emission
    rw [hstack] at this
    exact (List.nodup_cons.mp this).1 (List.mem_filterMap.mpr ⟨_, he, rfl⟩)
  rw [State.callHandler, if_pos hmem]
  cases hhandler : d.handler with
  | nextTask p =>
    have hpath : d.handler.path = p := by rw [hhandler]; rfl
    refine ⟨h.toCore.disconnect hstack hle (fun q => ?_) (fun q => ?_) rfl, fun e he => ?_⟩
    · rw [Call.belongs, Call.belongs, hpath]
    · rw [Call.drives, Call.drives, hhandler]
      exact decide_eq_decide.mpr ⟨fun h => h ▸ rfl, Handler.nextTask.inj⟩
    · rcases List.mem_cons.mp he with rfl | he
      · obtain ⟨i, hi, hres, hn⟩ := hwaits.next p hhandler
        refine ⟨i, hi, by omega, fun _ => ⟨_, hres, fun x hx hpos => ?_⟩⟩
        cases hx
        exact absurd hpos (not_lt.mpr hle)
      · exact hrest _ e he
  | release p =>
    have hpath : d.handler.path = p := by rw [hhandler]; rfl
    refine ⟨h.toCore.disconnect hstack hle (fun q => ?_) (fun q => ?_) rfl, fun e he => ?_⟩
    · rw [Call.belongs, Call.belongs, hpath]
    · rw [Call.drives, Call.drives, hhandler]
      exact (decide_eq_false (by simp)).symm
    · rcases List.mem_cons.mp he with rfl | he
      · obtain ⟨j, hj⟩ := hwaits.result
        obtain ⟨i, q, k, heq, hk, -⟩ := h.ran _ ((h.results _ _ hj).2.ran (h.results _ _ hj).1)
        rw [hpath] at heq
        show s.index p ≠ none
        rw [(List.cons.inj heq).2, hk]
        exact Option.some_ne_none k
      · exact hrest _ e he

/-! ## The functions -/

theorem Core.acquire {x : η} (h : Core top s) (hpos : 0 < s.acquisitions (.own x)) :
    Core top (s.setAcquisitions (.own x) (s.acquisitions (.own x) + 1)) := by
  have hpos' : 0 < s.acquisitions (.own x) + 1 := by omega
  have hacq := acquired_iff hpos hpos'
  have hlive : ∀ f : Call η → Bool,
      (s.setAcquisitions (.own x) (s.acquisitions (.own x) + 1)).live (one f) = s.live (one f) :=
    fun _ => live_setAcquisitions ⟨fun _ => hpos, fun _ => hpos'⟩
  have hcount : ∀ f : Call η → Bool,
      (s.setAcquisitions (.own x) (s.acquisitions (.own x) + 1)).count f = s.count f :=
    fun f => congrArg (s.stack.countP f + ·) (hlive f)
  have hbatch : ∀ p, (s.setAcquisitions (.own x) (s.acquisitions (.own x) + 1)).acquisitions
      (.batch p) = s.acquisitions (.batch p) := by
    intro p
    rw [acquisitions_setAcquisitions, Function.update_of_ne]
    simp
  have hg : Grows s (s.setAcquisitions (.own x) (s.acquisitions (.own x) + 1)) :=
    ⟨fun _ h => h, fun _ h => h, fun _ _ h => h,
      fun y _ hy => not_lt.mp fun hlt => not_lt.mpr hy ((hacq y).mp hlt), fun _ h _ _ => h⟩
  exact {
    __ := h
    fresh := fun p hp => ⟨(hbatch p).trans (h.fresh p hp).1, (h.fresh p hp).2⟩
    tokens := fun p => by rw [hbatch, hcount]; exact h.tokens p
    working := fun p hp => (hcount _).trans (h.working p hp)
    finished := fun p hp => (hcount _).trans (h.finished p hp)
    waits := fun d hd => ⟨(h.waits d hd).result, (h.waits d hd).pending.imp_left (hacq _).mpr,
      (h.waits d hd).next⟩
    results := fun q r hr => ⟨(h.results q r hr).1, (h.results q r hr).2.mono hg⟩
    before := fun p k hk j hj hn => (h.before p k hk j hj hn).mono hg fun _ => h.made
    emitted := by
      intro y hy
      have hiff : (s.setAcquisitions (.own x) (s.acquisitions (.own x) + 1)).acquisitions y ≤ 0 ↔
          s.acquisitions y ≤ 0 := by
        rw [← not_lt, ← not_lt]
        exact not_congr (hacq y)
      rw [if_congr hiff rfl rfl]
      refine h.emitted y ?_
      cases y with
      | own y => exact trivial
      | batch q => exact hy }

theorem Core.push (h : Core top s) (x : η) :
    Core top (s.setStack (.release (.own x) :: s.stack)) := by
  have hg := State.Grows.setStack (s := s) (.release (.own x) :: s.stack)
  have hcount : ∀ f : Call η → Bool, f (.release (.own x)) = false →
      (s.setStack (.release (.own x) :: s.stack)).count f = s.count f := by
    intro f hf
    rw [count_setStack, List.countP_cons, hf]
    rfl
  exact {
    __ := h
    tokens := fun p => (h.tokens p).trans (congrArg _ (hcount _ rfl).symm)
    working := fun p hp => (hcount _ rfl).trans (h.working p hp)
    finished := fun p hp => (hcount _ rfl).trans (h.finished p hp)
    waits := fun d hd => ⟨(h.waits d hd).result, (h.waits d hd).pending.imp_right
      (List.mem_cons_of_mem _), (h.waits d hd).next⟩
    results := fun q r hr => ⟨(h.results q r hr).1, (h.results q r hr).2.mono hg⟩
    before := fun p k hk j hj hn => (h.before p k hk j hj hn).mono hg fun _ => h.made
    emitted := h.emitted }

/-- **Step lemma.** One case for each event, and one for each call. -/
theorem Inv.step (h : Inv top s) {e : Event η} (hstep : Batch.step top s e = some t) :
    Inv top t := by
  cases e with
  | call =>
    rw [Batch.step, State.call] at hstep
    split at hstep
    · cases hstep
    · cases hstep
    · cases hstep
      exact h.runTask ‹_›
    · cases hstep
      exact h.afterTask ‹_›
    · cases hstep
      exact h.nextTask ‹_›
    · cases hstep
      exact h.release ‹_›
    · cases hstep
      exact h.callHandler ‹_›
  | returns hold =>
    rw [Batch.step] at hstep
    split at hstep
    · rename_i p rest hstack
      cases hstep
      obtain ⟨i, hi, hget, hran, hnone⟩ : (Call.function p).Ok top s :=
        h.calls _ (hstack ▸ List.mem_cons_self)
      have hlt : i < (top.tasksAt p).length :=
        Task.get_isSome_iff.mp (by rw [hget]; rfl)
      refine h.replace hstack (fun _ => rfl) (fun _ => rfl) rfl rfl ⟨i, hi, by omega, hnone, ?_⟩
      refine ⟨fun hmissing => ?_, fun _ => hran, fun k ts hbatch => ?_, fun q hq => ?_⟩
      · cases hget.symm.trans hmissing
      · cases hget.symm.trans hbatch
      · cases hold <;> cases hq
    · cases hstep
  | release x =>
    rw [Batch.step] at hstep
    split at hstep
    · cases hstep
      refine ⟨h.toCore.push x, fun d hd => ?_⟩
      rcases List.mem_cons.mp hd with rfl | hd
      · exact trivial
      · exact (h.calls d hd).setStack h.toCore _
    · cases hstep
  | acquire x =>
    rw [Batch.step] at hstep
    split at hstep
    · rename_i hx
      cases hstep
      have hpos := isAcquired_iff.mp hx.2
      have hpos' : 0 < s.acquisitions (.own x) + 1 := by omega
      refine ⟨h.toCore.acquire hpos, fun d hd => ?_⟩
      refine h.same_ok hd ⟨fun _ h => h, fun _ h => h, fun _ _ h => h, fun y _ hy => ?_,
        fun _ h _ _ => h⟩ rfl rfl rfl fun _ _ he _ => he
      exact not_lt.mp fun hlt => not_lt.mpr hy ((acquired_iff hpos hpos' y).mp hlt)
    · cases hstep

theorem Core.new : Core top (State.new : State η) where
  threw := rfl
  fresh _ _ := ⟨rfl, List.not_mem_nil⟩
  tokens _ := rfl
  working _ := by rintro ⟨i, hi, -⟩; cases hi
  finished _ _ := rfl
  waits d hd := absurd hd List.not_mem_nil
  emission := List.nodup_nil
  distinct := List.nodup_nil
  ids d hd := absurd hd List.not_mem_nil
  tree p hp := absurd rfl hp
  started i p hp := absurd rfl hp
  ran q hq := absurd hq List.not_mem_nil
  results q r hr := by cases hr
  before p k hk := by cases hk
  emitted x hx := by
    cases x with
    | own x => rfl
    | batch p => exact absurd rfl hx

theorem Inv.run (kind : Kind) (tasks : List Task) :
    Inv (.batch kind tasks) (State.run : State η) := by
  refine ⟨Core.new.start rfl ⟨kind, tasks, rfl⟩ (fun _ _ h => by cases h), fun d hd => ?_⟩
  rw [List.mem_singleton.mp hd]
  exact ⟨0, index_start_self, by omega, List.not_mem_nil⟩

/-- **The invariant.** It holds after every run. -/
theorem Inv.of_reachable {kind : Kind} {tasks : List Task}
    (h : Runs.Reachable (Batch.step (.batch kind tasks)) State.run s) : Inv (.batch kind tasks) s :=
  h.invariant (Inv.run kind tasks) fun _ _ _ hinv _ hstep => hinv.step hstep

end Batch
