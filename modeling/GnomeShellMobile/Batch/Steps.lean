import GnomeShellMobile.Batch.Invariant

/-!
# Batch — one call after another

One lemma for each call of a batch: the invariant is there again once it has been executed, with
what it calls next on the stack.
-/

namespace Batch

open State

variable {η : Type} [DecidableEq η] {top : Task} {s t : State η} {p q : Path} {i j : ℕ}
  {c c' : Call η} {rest : List (Call η)}

/-! ## One call in the place of another -/

omit [DecidableEq η] in
theorem State.Grows.setStack (calls : List (Call η)) : Grows s (s.setStack calls) :=
  ⟨fun _ h => h, fun _ h => h, fun _ _ h => h, fun _ _ h => h, fun _ h _ _ => h⟩

theorem Call.Ok.setStack {d : Call η} (h : d.Ok top s) (hcore : Core top s)
    (calls : List (Call η)) : d.Ok top (s.setStack calls) :=
  h.mono hcore (.setStack calls) (fun _ _ => rfl) (fun _ _ _ h => h) (fun _ _ _ => rfl) (by
    rintro d rfl
    exact ⟨h.1, id⟩)

omit [DecidableEq η] in
theorem mem_tail_of_handler {d : Connection η} (hc : c.handler? = none)
    (hmem : Call.handler d ∈ c :: rest) : Call.handler d ∈ rest := by
  rcases List.mem_cons.mp hmem with heq | hmem
  · rw [← heq] at hc
    cases hc
  · exact hmem

theorem Core.replace (h : Core top s) (c' : Call η) (hstack : s.stack = c :: rest)
    (hbelongs : ∀ p, c'.belongs p = c.belongs p) (hdrives : ∀ p, c'.drives p = c.drives p)
    (hc : c.handler? = none) (hc' : c'.handler? = none) : Core top (s.setStack (c' :: rest)) where
  __ := h
  tokens p := by rw [count_replace hstack (hbelongs p)]; exact h.tokens p
  working p hw := by rw [count_replace hstack (hdrives p)]; exact h.working p hw
  finished p hw := by rw [count_replace hstack (hdrives p)]; exact h.finished p hw
  waits d hd := by
    have hwaits := h.waits d hd
    refine ⟨hwaits.result, hwaits.pending.imp_right fun hmem => ?_, hwaits.next⟩
    rw [hstack] at hmem
    exact List.mem_cons_of_mem _ (mem_tail_of_handler hc hmem)
  emission := by
    have := h.emission
    rw [hstack, List.filterMap_cons_none hc] at this
    rwa [stack_setStack, List.filterMap_cons_none hc']
  results q r hr := ⟨(h.results q r hr).1, (h.results q r hr).2.mono (.setStack _)⟩
  before p k hk j hj hn := (h.before p k hk j hj hn).mono (.setStack _) fun _ => h.made

theorem Inv.replace (h : Inv top s) (hstack : s.stack = c :: rest)
    (hbelongs : ∀ p, c'.belongs p = c.belongs p) (hdrives : ∀ p, c'.drives p = c.drives p)
    (hc : c.handler? = none) (hc' : c'.handler? = none) (hok : c'.Ok top s) :
    Inv top (s.setStack (c' :: rest)) where
  toCore := h.toCore.replace c' hstack hbelongs hdrives hc hc'
  calls d hd := by
    refine Call.Ok.setStack ?_ h.toCore _
    rcases List.mem_cons.mp hd with rfl | hd
    · exact hok
    · exact h.calls d (hstack ▸ List.mem_cons_of_mem _ hd)

theorem Inv.rest_ok (h : Inv top s) (hstack : s.stack = c :: rest) (hc : c.drives p = true)
    (hg : Grows s t) (hindex : ∀ q, q ≠ p → s.index q ≠ none → t.index q = s.index q)
    (hran : ∀ i q, q ≠ p → i :: q ∈ t.ran → i :: q ∈ s.ran)
    (hresults : ∀ i q, q ≠ p → t.results (i :: q) = s.results (i :: q))
    (hhandler : ∀ d, .handler d ∈ rest → d ∈ s.connections → s.acquisitions d.hold ≤ 0 →
      d ∈ t.connections ∧ t.acquisitions d.hold ≤ 0) :
    ∀ d ∈ rest, d.Ok top t := by
  intro d hd
  have hok : d.Ok top s := h.calls d (hstack ▸ List.mem_cons_of_mem _ hd)
  have hne : ∀ q, d.drives q = true → q ≠ p := by
    rintro q hq rfl
    rw [(h.alone hstack hc).2.1 d hd] at hq
    cases hq
  have hstarted : ∀ q, d.drives q = true → s.index q ≠ none := by
    intro q hq
    by_contra hnone
    have hzero := h.finished q (by rintro ⟨i, hi, -⟩; rw [hnone] at hi; cases hi)
    have := List.countP_pos_iff.mpr ⟨d, hstack ▸ List.mem_cons_of_mem _ hd, hq⟩
    rw [count] at hzero
    omega
  refine hok.mono h.toCore hg (fun q hq => hindex q (hne q hq) (hstarted q hq))
    (fun i q hq => hran i q (hne q hq)) (fun i q hq => hresults i q (hne q hq)) ?_
  rintro d rfl
  exact ⟨(hhandler d hd hok.1 hok.2).1, fun _ => (hhandler d hd hok.1 hok.2).2⟩

/-! ## `runTask()` -/

omit [DecidableEq η] in
theorem State.Grows.addRan : Grows s { s with ran := q :: s.ran } :=
  ⟨fun _ h => h, fun _ h => List.mem_cons_of_mem _ h, fun _ _ h => h, fun _ _ h => h,
    fun _ h _ _ => h⟩

theorem Core.addRan (h : Core top s) (hq : ∃ i p k, q = i :: p ∧ s.index p = some k ∧ i ≤ k ∧
    (top.get q).isSome) : Core top { s with ran := q :: s.ran } where
  __ := h
  waits d hd := ⟨(h.waits d hd).result, (h.waits d hd).pending, (h.waits d hd).next⟩
  started i p hi := List.mem_cons_of_mem _ (h.started i p hi)
  ran q' hq' := by
    rcases List.mem_cons.mp hq' with rfl | hq'
    · exact hq
    · exact h.ran q' hq'
  results q r hr := ⟨(h.results q r hr).1, (h.results q r hr).2.mono .addRan⟩
  before p k hk j hj hn := (h.before p k hk j hj hn).mono .addRan fun _ => h.made

theorem State.Grows.start (hq : s.index q = none) (calls : List (Call η)) :
    Grows s (s.start q calls) where
  started p hp := by
    rw [index_start_of_ne]
    · exact hp
    · rintro rfl
      exact hp hq
  ran _ h := h
  results _ _ h := h
  released x hmade hx := by
    rw [acquisitions_start_of_ne]
    · exact hx
    · rintro rfl
      exact hmade hq
  waits _ h _ _ := h

theorem Core.hold_ne (h : Core top s) (hq : s.index q = none) :
    ∀ d ∈ s.connections, d.hold ≠ .batch q := by
  intro d hd heq
  obtain ⟨j, hj⟩ := (h.waits d hd).result
  rw [heq] at hj
  obtain ⟨hpath, hindex⟩ := (h.results _ _ hj).2.own q rfl
  rw [← hpath] at hindex
  exact hindex hq

theorem count_start {f : Call η → Bool} (hnew : ∀ d ∈ s.connections, d.hold ≠ .batch q) :
    (s.start q s.stack).count f = (if f (.process q) then 1 else 0) + s.count f := by
  show (Call.process q :: s.stack).countP f + (s.start q s.stack).live (one f) = _
  rw [live_start hnew, List.countP_cons, count]
  omega

theorem Core.start (h : Core top s) (hq : s.index q = none)
    (hget : ∃ k ts, top.get q = some (.batch k ts)) (hran : ∀ i p, q = i :: p → q ∈ s.ran) :
    Core top (s.start q s.stack) := by
  have hg := State.Grows.start hq s.stack
  have hnew := h.hold_ne hq
  have hne : ∀ {p k}, s.index p = some k → p ≠ q := by
    rintro p k hk rfl
    rw [hq] at hk
    cases hk
  have hidle : ¬ s.Working top q := fun ⟨_, hi, _⟩ => hne hi rfl
  have hworking : ∀ p, p ≠ q → ((s.start q s.stack).Working top p ↔ s.Working top p) := by
    intro p hp
    rw [Working, Working, index_start_of_ne hp]
  have hstarted : ∀ p, p ≠ q → (s.start q s.stack).index p ≠ none → s.index p ≠ none := by
    intro p hp hindex
    rwa [index_start_of_ne hp] at hindex
  exact {
    __ := h
    fresh := by
      intro p hp
      have hpq : p ≠ q := by
        rintro rfl
        rw [index_start_self] at hp
        cases hp
      rw [index_start_of_ne hpq] at hp
      rw [acquisitions_start_of_ne (by simpa using hpq)]
      exact h.fresh p hp
    tokens := by
      intro p
      rw [count_start hnew, Call.belongs_process]
      by_cases hp : q = p
      · subst hp
        have hzero := (h.fresh q hq).1
        rw [h.tokens q] at hzero
        rw [acquisitions_start_self, decide_eq_true rfl, if_pos rfl]
        omega
      · rw [acquisitions_start_of_ne (by simpa using Ne.symm hp), h.tokens p,
          decide_eq_false hp]
        simp
    working := by
      intro p hw
      rw [count_start hnew, Call.drives_process]
      by_cases hp : q = p
      · subst hp
        rw [h.finished q hidle, decide_eq_true rfl, if_pos rfl]
      · rw [h.working p ((hworking p (Ne.symm hp)).mp hw), decide_eq_false hp]
        simp
    finished := by
      intro p hw
      rw [count_start hnew, Call.drives_process]
      by_cases hp : q = p
      · subst hp
        exact absurd ⟨0, index_start_self, by omega⟩ hw
      · rw [h.finished p fun hs => hw ((hworking p (Ne.symm hp)).mpr hs), decide_eq_false hp]
        simp
    waits := by
      intro d hd
      have hwaits := h.waits d hd
      refine ⟨hwaits.result, hwaits.pending.imp ?_ (List.mem_cons_of_mem _), fun p hp => ?_⟩
      · intro hacq
        rw [acquisitions_start_of_ne (hnew d hd)]
        exact hacq
      · obtain ⟨i, hi, hres, hn⟩ := hwaits.next p hp
        exact ⟨i, (index_start_of_ne (hne hi)).trans hi, hres, hn⟩
    tree := by
      intro p hp
      by_cases heq : p = q
      · exact heq ▸ hget
      · exact h.tree p (hstarted p heq hp)
    started := by
      intro i p hp
      by_cases heq : i :: p = q
      · exact heq ▸ hran i p heq.symm
      · exact h.started i p (hstarted _ heq hp)
    ran := by
      intro q' hq'
      obtain ⟨i, p, k, rfl, hk, hle, hsome⟩ := h.ran q' hq'
      exact ⟨i, p, k, rfl, (index_start_of_ne (hne hk)).trans hk, hle, hsome⟩
    results := fun q r hr => ⟨(h.results q r hr).1, (h.results q r hr).2.mono hg⟩
    before := by
      intro p k hk j hj hn
      by_cases heq : p = q
      · rw [heq, index_start_self] at hk
        cases hk
        omega
      · rw [index_start_of_ne heq] at hk
        exact (h.before p k hk j hj hn).mono hg fun _ => h.made
    emitted := by
      intro x hx
      by_cases heq : x = .batch q
      · rw [heq, acquisitions_start_self, if_neg (by omega)]
        exact List.count_eq_zero.mpr (h.fresh q hq).2
      · rw [acquisitions_start_of_ne heq]
        refine h.emitted x ?_
        cases x with
        | own x => exact trivial
        | batch p => exact hstarted p (fun hp => heq (hp ▸ rfl)) hx }

omit [DecidableEq η] in
theorem current_eq (h : s.index p = some i) : s.current p = i :: p := by rw [current, h]; rfl

theorem Inv.runTask (h : Inv top s) (hstack : s.stack = .process p :: rest) :
    Inv top (s.runTask top p rest) := by
  have hdrives : (Call.process p : Call η).drives p = true := decide_eq_true rfl
  obtain ⟨i, hi, hlt, hnot⟩ : (Call.process p).Ok top s := h.calls _ (hstack ▸ List.mem_cons_self)
  have hnone : s.results (i :: p) = none := by
    by_contra hres
    obtain ⟨r, hr⟩ := Option.ne_none_iff_exists'.mp hres
    exact hnot ((h.results _ r hr).2.ran (h.results _ r hr).1)
  rw [State.runTask, current_eq hi]
  cases hget : top.get (i :: p) with
  | none =>
    refine h.replace hstack (fun _ => rfl) (fun _ => rfl) rfl rfl ⟨i, hi, hlt, hnone, ?_⟩
    exact ⟨fun _ => rfl, by simp [hget], by simp [hget], by simp⟩
  | some task =>
    have hsome : (top.get (i :: p)).isSome := by rw [hget]; rfl
    have hran : ∃ j q k, i :: p = j :: q ∧ s.index q = some k ∧ j ≤ k ∧
        (top.get (i :: p)).isSome := ⟨i, p, i, rfl, hi, le_rfl, hsome⟩
    -- a task of another batch is not the one that is run
    have hothers : ∀ (j : ℕ) (q : Path), q ≠ p → j :: q ∈ (i :: p) :: s.ran → j :: q ∈ s.ran := by
      intro j q hq hmem
      rcases List.mem_cons.mp hmem with heq | hmem
      · exact absurd (List.cons.inj heq).2 hq
      · exact hmem
    cases task with
    | function =>
      refine ⟨(h.toCore.replace (.function p) hstack (fun _ => rfl) (fun _ => rfl) rfl
        rfl).addRan hran, fun d hd => ?_⟩
      rcases List.mem_cons.mp hd with rfl | hd
      · exact ⟨i, hi, hget, List.mem_cons_self, hnone⟩
      · have hg : Grows s { s with stack := .function p :: rest, ran := (i :: p) :: s.ran } :=
          (State.Grows.setStack (.function p :: rest)).trans .addRan
        exact h.rest_ok hstack hdrives hg
          (fun _ _ _ => rfl) hothers (fun _ _ _ => rfl) (fun _ _ hd hle => ⟨hd, hle⟩) d hd
    | batch k ts =>
      have hnew : s.index (i :: p) = none := by
        by_contra hstarted
        exact hnot (h.started i p hstarted)
      have hpath : p ≠ i :: p := fun heq => List.cons_ne_self i p heq.symm
      have hg : Grows s ({ s with ran := (i :: p) :: s.ran }.start (i :: p)
          (.returned p (some (.batch (i :: p))) :: rest)) :=
        State.Grows.addRan.trans
          (State.Grows.start (s := { s with ran := (i :: p) :: s.ran }) hnew _)
      have hcore := (h.toCore.replace (.returned p (some (.batch (i :: p)))) hstack
        (fun _ => rfl) (fun _ => rfl) rfl rfl).addRan hran
      refine ⟨hcore.start hnew ⟨k, ts, hget⟩ fun _ _ _ => List.mem_cons_self, fun d hd => ?_⟩
      rcases List.mem_cons.mp hd with rfl | hd
      · refine ⟨0, index_start_self, by omega, fun hmem => ?_⟩
        obtain ⟨j, q, k, heq, hk, -⟩ := hcore.ran _ hmem
        rw [← (List.cons.inj heq).2] at hk
        cases hnew.symm.trans hk
      rcases List.mem_cons.mp hd with rfl | hd
      · refine ⟨i, (index_start_of_ne hpath).trans hi, hlt, hnone, ?_⟩
        refine ⟨by simp [hget], fun _ => List.mem_cons_self, fun _ _ _ => rfl, fun q' hq' => ?_⟩
        cases hq'
        exact ⟨rfl, fun hnone => Option.some_ne_none 0 (index_start_self.symm.trans hnone)⟩
      · refine h.rest_ok hstack hdrives hg (fun q _ hq => index_start_of_ne ?_) hothers
          (fun _ _ _ => rfl) (fun d hd hmem hle => ⟨hmem, ?_⟩) d hd
        · rintro rfl
          exact hq hnew
        · exact hg.released _ (h.connected_made hmem) hle

/-! ## The rest of `process()` -/

omit [DecidableEq η] in
theorem State.Grows.record (hnone : s.results q = none) (r : Option (Hold η)) :
    Grows s (s.setResult q r) where
  started _ h := h
  ran _ h := h
  results q' r' hr := by
    rw [results_setResult, Function.update_of_ne, hr]
    rintro rfl
    cases hnone.symm.trans hr
  released _ _ h := h
  waits _ h _ _ := h

theorem Core.record (h : Core top s) (hnone : s.results q = none) (hsome : (top.get q).isSome)
    {r : Option (Hold η)} (hr : s.Returns top q r) : Core top (s.setResult q r) := by
  have hg := State.Grows.record hnone r
  exact {
    __ := h
    waits := by
      intro d hd
      have hwaits := h.waits d hd
      refine ⟨?_, hwaits.pending, fun p hp => ?_⟩
      · obtain ⟨j, hj⟩ := hwaits.result
        exact ⟨j, hg.results _ _ hj⟩
      · obtain ⟨i, hi, hres, hn⟩ := hwaits.next p hp
        exact ⟨i, hi, hg.results _ _ hres, hn⟩
    results := by
      intro q' r' hr'
      by_cases hq : q' = q
      · subst hq
        rw [results_setResult, Function.update_self] at hr'
        cases hr'
        exact ⟨hsome, hr.mono hg⟩
      · rw [results_setResult, Function.update_of_ne hq] at hr'
        exact ⟨(h.results q' r' hr').1, (h.results q' r' hr').2.mono hg⟩
    before := fun p k hk j hj hn => (h.before p k hk j hj hn).mono hg fun _ => h.made
    emitted := h.emitted }

omit [DecidableEq η] in
theorem count_connect {f : Call η → Bool} {x : Hold η} (hx : 0 < s.acquisitions x) (g : Handler)
    (calls : List (Call η)) : ((s.connect x g).setStack calls).count f =
      calls.countP f + s.live (one f) + if f (.handler ⟨s.nextId, x, g⟩) then 1 else 0 := by
  rw [count_setStack, live_connect, if_pos (isAcquired_iff.mpr hx), Nat.add_assoc]
  rfl

theorem acquired_iff {x : Hold η} {n : ℤ} (hpos : 0 < s.acquisitions x) (hn : 0 < n) (y : Hold η) :
    0 < (s.setAcquisitions x n).acquisitions y ↔ 0 < s.acquisitions y := by
  rw [acquisitions_setAcquisitions, Function.update_apply]
  split
  · rename_i heq
    exact ⟨fun _ => heq ▸ hpos, fun _ => hn⟩
  · rfl

theorem State.Grows.connect {n : ℤ} (hpos : 0 < s.acquisitions (.batch p)) (hn : 0 < n)
    (x : Hold η) (g : Handler) (calls : List (Call η)) :
    Grows s (((s.setAcquisitions (.batch p) n).connect x g).setStack calls) where
  started _ h := h
  ran _ h := h
  results _ _ h := h
  released y _ hy := not_lt.mp fun hlt => not_lt.mpr hy ((acquired_iff hpos hn y).mp hlt)
  waits _ h _ _ := List.mem_append_left _ h

/-- The hold of the batch at `p` gets `n` acquisitions, and one handler of the batch waits for the
hold `x`, in the place of a call or with one acquisition more. -/
theorem Core.connect (h : Core top s) (x : Hold η) (g : Handler) (n : ℤ) (calls : List (Call η))
    (hx : 0 < s.acquisitions x) (hxp : x ≠ .batch p) (hg : g.path = p)
    (hpos : 0 < s.acquisitions (.batch p)) (hn : 0 < n) (hi : s.index p = some i)
    (hres : s.results (i :: p) = some (some x)) (hlt : i < (top.tasksAt p).length)
    (hbelongs : ∀ p', (calls.countP (Call.belongs p') : ℤ) + (if p = p' then 1 else 0) =
      s.stack.countP (Call.belongs p') + if p = p' then n - s.acquisitions (.batch p) else 0)
    (hdrives : ∀ p', calls.countP (Call.drives p') + (if g = .nextTask p' then 1 else 0) =
      s.stack.countP (Call.drives p'))
    (hcalls : calls.filterMap Call.handler? = s.stack.filterMap Call.handler?) :
    Core top (((s.setAcquisitions (.batch p) n).connect x g).setStack calls) := by
  have hacq : (s.setAcquisitions (.batch p) n).acquisitions x = s.acquisitions x :=
    Function.update_of_ne hxp ..
  have hlive : ∀ f : Call η → Bool, (s.setAcquisitions (.batch p) n).live (one f) = s.live (one f) :=
    fun _ => live_setAcquisitions ⟨fun _ => hpos, fun _ => hn⟩
  have hle := acquired_iff hpos hn
  have hhandler : ∀ d, Call.handler d ∈ s.stack → Call.handler d ∈ calls := by
    intro d hd
    have : d ∈ calls.filterMap Call.handler? := hcalls ▸ List.mem_filterMap.mpr ⟨_, hd, rfl⟩
    obtain ⟨c, hc, hcd⟩ := List.mem_filterMap.mp this
    cases c with
    | handler c => cases hcd; exact hc
    | _ => cases hcd
  have hgrows := State.Grows.connect hpos hn x g calls
  exact {
    __ := h
    fresh := by
      intro p' hp'
      have hne : Hold.batch p' ≠ (.batch p : Hold η) := by
        rintro heq
        cases heq
        cases hi.symm.trans hp'
      show Function.update s.acquisitions (.batch p) n (.batch p') = 0 ∧ _
      rw [Function.update_of_ne hne]
      exact h.fresh p' hp'
    tokens := by
      intro p'
      rw [count_connect (hacq ▸ hx), hlive]
      show Function.update s.acquisitions (.batch p) n (.batch p') = _
      have hold := h.tokens p'
      have hbefore := hbelongs p'
      rw [count] at hold
      rw [show (Call.handler ⟨(s.setAcquisitions (.batch p) n).nextId, x, g⟩).belongs p' =
        decide (p = p') from by rw [Call.belongs, hg]]
      by_cases heq : p = p'
      · subst heq
        simp only [if_true, Function.update_self, decide_eq_true_eq] at hbefore ⊢
        omega
      · rw [Function.update_of_ne fun h => heq (Hold.batch.inj h).symm]
        simp only [decide_eq_true_eq, if_neg heq] at hbefore ⊢
        omega
    working := by
      intro p' hw
      have hold := h.working p' hw
      rw [count, ← hdrives p'] at hold
      rw [count_connect (hacq ▸ hx), hlive]
      simp only [Call.drives, decide_eq_true_eq]
      omega
    finished := by
      intro p' hw
      have hold := h.finished p' hw
      rw [count, ← hdrives p'] at hold
      rw [count_connect (hacq ▸ hx), hlive]
      simp only [Call.drives, decide_eq_true_eq]
      omega
    waits := by
      intro d hd
      rcases List.mem_append.mp hd with hd | hd
      · have hwaits := h.waits d hd
        exact ⟨hwaits.result, hwaits.pending.imp (hle _).mpr (hhandler d), hwaits.next⟩
      · rw [List.mem_singleton.mp hd]
        refine ⟨⟨i, ?_⟩, .inl ((hle x).mpr hx), fun p' hp' => ⟨i, ?_, ?_, ?_⟩⟩
        · rw [hg]
          exact hres
        all_goals
          have hp : p = p' := by rw [← hg, show g = .nextTask p' from hp']; rfl
          subst hp
          assumption
    emission := by
      rw [stack_setStack, hcalls]
      exact h.emission
    distinct := by
      refine List.Nodup.append h.distinct (List.nodup_singleton _) ?_
      intro d hd hnew
      have := h.ids d hd
      rw [List.mem_singleton.mp hnew] at this
      exact lt_irrefl s.nextId this
    ids := by
      intro d hd
      rcases List.mem_append.mp hd with hd | hd
      · exact Nat.lt_succ_of_lt (h.ids d hd)
      · rw [List.mem_singleton.mp hd]
        exact Nat.lt_succ_self s.nextId
    results := fun q r hr => ⟨(h.results q r hr).1, (h.results q r hr).2.mono hgrows⟩
    before := fun p k hk j hj hn => (h.before p k hk j hj hn).mono hgrows fun _ => h.made
    emitted := by
      intro y hy
      have hiff : (((s.setAcquisitions (.batch p) n).connect x g).setStack calls).acquisitions y ≤ 0
          ↔ s.acquisitions y ≤ 0 := by
        rw [← not_lt, ← not_lt]
        exact not_congr (hle y)
      rw [if_congr hiff rfl rfl]
      refine h.emitted y ?_
      cases y with
      | own y => exact trivial
      | batch p' => exact hy }

theorem setAcquisitions_self (x : Hold η) : s.setAcquisitions x (s.acquisitions x) = s := by
  rw [setAcquisitions, Function.update_eq_self]

theorem Core.acquired (h : Core top s) (hstack : s.stack = c :: rest)
    (hc : c.belongs p = true) : 0 < s.acquisitions (.batch p) := by
  rw [h.tokens p, count_of_stack hstack, List.countP_cons, if_pos hc]
  omega

/-- What is known once the current task of the batch at `p` has returned `r`, and that has been
recorded. -/
structure Recorded (top : Task) (s : State η) (p : Path) (i : ℕ) (r : Option (Hold η)) : Prop where
  core : Core top s
  index : s.index p = some i
  le : i < max (top.tasksAt p).length 1
  returns : s.Returns top (i :: p) r
  result : i < (top.tasksAt p).length → s.results (i :: p) = some r

theorem Inv.record {r : Option (Hold η)} (h : Inv top s) (hstack : s.stack = .returned p r :: rest) :
    ∃ i, Recorded top (s.record top p r) p i r ∧ Grows s (s.record top p r) ∧
      (s.record top p r).stack = s.stack ∧ (s.record top p r).index = s.index ∧
      (s.record top p r).ran = s.ran ∧ (s.record top p r).connections = s.connections ∧
      (s.record top p r).acquisitions = s.acquisitions ∧
      ∀ j q, q ≠ p → (s.record top p r).results (j :: q) = s.results (j :: q) := by
  obtain ⟨i, hi, hlt, hnone, hreturns⟩ : (Call.returned p r).Ok top s :=
    h.calls _ (hstack ▸ List.mem_cons_self)
  rw [State.record, current_eq hi]
  split
  · rename_i hsome
    have hg := State.Grows.record hnone r
    refine ⟨i, ⟨h.toCore.record hnone hsome hreturns, hi, hlt, hreturns.mono hg, fun _ => ?_⟩, hg,
      rfl, rfl, rfl, rfl, rfl, fun j q hq => ?_⟩
    · rw [results_setResult, Function.update_self]
    · rw [results_setResult, Function.update_of_ne]
      intro heq
      exact hq (List.cons.inj heq).2
  · rename_i hsome
    refine ⟨i, ⟨h.toCore, hi, hlt, hreturns, fun hn => ?_⟩, .setStack s.stack, rfl, rfl, rfl, rfl,
      rfl, fun _ _ _ => rfl⟩
    exact absurd (Task.get_isSome_iff.mpr hn) hsome

theorem Inv.afterTask {r : Option (Hold η)} (h : Inv top s)
    (hstack : s.stack = .returned p r :: rest) : Inv top (s.afterTask top p r rest) := by
  have hdrives : (Call.returned p r).drives p = true := decide_eq_true rfl
  obtain ⟨i, hu, hg, hstack', hindex, hran, hconn, hacq, hresults⟩ := h.record hstack
  unfold State.afterTask
  generalize s.record top p r = u at hu hg hstack' hindex hran hconn hacq hresults ⊢
  have hstack'' : u.stack = .returned p r :: rest := hstack'.trans hstack
  -- the rest of the calls, whatever this one does to the objects
  have hrest : ∀ t : State η, Grows u t → t.index = u.index → t.ran = u.ran →
      t.results = u.results → (∀ d ∈ u.connections, d ∈ t.connections) →
      (∀ x, u.acquisitions x ≤ 0 → t.acquisitions x ≤ 0) → ∀ d ∈ rest, d.Ok top t := by
    intro t hg' hindex' hran' hresults' hconn' hacq'
    refine h.rest_ok hstack hdrives (hg.trans hg') (fun q _ _ => ?_) (fun j q _ hq => ?_)
      (fun j q hq => ?_) fun d _ hd hle => ?_
    · rw [hindex', hindex]
    · rwa [hran', hran] at hq
    · rw [hresults', hresults j q hq]
    · exact ⟨hconn' d (hconn ▸ hd), hacq' _ (hacq ▸ hle)⟩
  -- `nextTask()` is called at once
  have hnext : (∀ x, r = some x → 0 < u.acquisitions x → False) →
      Inv top (u.setStack (.nextTask p :: rest)) := by
    intro hreleased
    refine ⟨hu.core.replace _ hstack'' (fun _ => rfl) (fun _ => rfl) rfl rfl, fun d hd => ?_⟩
    rcases List.mem_cons.mp hd with rfl | hd
    · exact ⟨i, hu.index, hu.le, fun hn => ⟨r, hu.result hn, fun x hx hpos =>
        (hreleased x hx hpos).elim⟩⟩
    · exact hrest _ (.setStack (.nextTask p :: rest)) rfl rfl rfl (fun _ h => h) (fun _ h => h) d hd
  cases r with
  | none => exact hnext (by simp)
  | some x =>
    have hn : i < (top.tasksAt p).length := by
      by_contra hge
      cases hu.returns.missing (Task.get_eq_none_iff.mpr (not_lt.mp hge))
    have hxp : x ≠ .batch p := by
      rintro rfl
      exact List.cons_ne_self i p (hu.returns.own p rfl).1.symm
    have hpos : 0 < u.acquisitions (.batch p) := hu.core.acquired hstack'' (decide_eq_true rfl)
    dsimp only
    split
    · rename_i hconc
      rw [acquireUntilAfter]
      split
      · rename_i hx
        rw [isAcquired_iff] at hx
        rw [if_pos (isAcquired_iff.mpr hpos)]
        have hone : 0 < u.acquisitions (.batch p) + 1 := by omega
        refine ⟨hu.core.connect _ _ _ _ hx hxp rfl hpos hone hu.index (hu.result hn) hn (fun p' => ?_)
          (fun p' => ?_) ?_, fun d hd => ?_⟩
        · rw [hstack'', List.countP_cons, List.countP_cons]
          simp only [Call.belongs, decide_eq_true_eq]
          push_cast
          split <;> omega
        · rw [hstack'', List.countP_cons, List.countP_cons]
          simp [Call.drives]
        · rw [hstack'']
          rfl
        · rcases List.mem_cons.mp hd with rfl | hd
          · refine ⟨i, hu.index, hu.le, fun _ => ⟨some x, hu.result hn, fun y hy _ => ?_⟩⟩
            cases hy
            exact ⟨hconc, _, List.mem_append_right _ List.mem_cons_self, rfl, rfl⟩
          · refine hrest _ (.connect hpos hone x _ _) rfl rfl rfl
              (fun _ => List.mem_append_left _) (fun y hy => ?_) d hd
            exact not_lt.mp fun hlt => not_lt.mpr hy ((acquired_iff hpos hone y).mp hlt)
      · rename_i hx
        exact hnext fun y hy hpos' => by
          cases hy
          exact hx (isAcquired_iff.mpr hpos')
    · split
      · rename_i hx
        rw [isAcquired_iff] at hx
        have hcore := hu.core.connect x (.nextTask p) (u.acquisitions (.batch p)) rest hx hxp rfl
          hpos hpos hu.index (hu.result hn) hn (fun p' => ?_)
          (fun p' => ?_) ?_
        · rw [setAcquisitions_self] at hcore
          refine ⟨hcore, hrest _ ?_ rfl rfl rfl (fun _ => List.mem_append_left _) fun _ h => h⟩
          have := State.Grows.connect hpos hpos x (.nextTask p) rest
          rwa [setAcquisitions_self] at this
        · rw [hstack'', List.countP_cons]
          simp only [Call.belongs, decide_eq_true_eq]
          push_cast
          split <;> omega
        · rw [hstack'', List.countP_cons]
          simp [Call.drives]
        · rw [hstack'']
          rfl
      · rename_i hx
        exact hnext fun y hy hpos' => by
          cases hy
          exact hx (isAcquired_iff.mpr hpos')

/-! ## `nextTask()` -/

omit [DecidableEq η] in
theorem State.Grows.setIndex (i : ℕ) (calls : List (Call η)) :
    Grows s ((s.setIndex p i).setStack calls) where
  started q hq := by
    show Function.update s.index p (some i) q ≠ none
    rw [Function.update_apply]
    split
    · exact Option.some_ne_none i
    · exact hq
  ran _ h := h
  results _ _ h := h
  released _ _ h := h
  waits _ h _ _ := h

theorem Core.next (h : Core top s) (hstack : s.stack = .nextTask p :: rest)
    (hi : s.index p = some i) (hlt : i < max (top.tasksAt p).length 1)
    (hsettled : i < (top.tasksAt p).length → s.Settled top p i)
    (hbelongs : ∀ q, c.belongs q = decide (p = q))
    (hdrives : ∀ q, c.drives q = decide (p = q ∧ i + 1 < (top.tasksAt p).length))
    (hc : c.handler? = none) : Core top ((s.setIndex p (i + 1)).setStack (c :: rest)) := by
  have hg := State.Grows.setIndex (s := s) (p := p) (i + 1) (c :: rest)
  have hindex : ∀ q, q ≠ p → ((s.setIndex p (i + 1)).setStack (c :: rest)).index q = s.index q :=
    fun q hq => Function.update_of_ne hq ..
  have hself : ((s.setIndex p (i + 1)).setStack (c :: rest)).index p = some (i + 1) :=
    Function.update_self ..
  have hcount : ∀ f : Call η → Bool, ((s.setIndex p (i + 1)).setStack (c :: rest)).count f =
      rest.countP f + (if f c then 1 else 0) + s.live (one f) := by
    intro f
    show (c :: rest).countP f + s.live (one f) = _
    rw [List.countP_cons]
  have hbefore : ∀ f : Call η → Bool, s.count f =
      rest.countP f + (if f (.nextTask p) then 1 else 0) + s.live (one f) := by
    intro f
    rw [count_of_stack hstack, List.countP_cons]
  have hworking : s.Working top p := ⟨i, hi, hlt⟩
  exact {
    __ := h
    fresh := by
      intro q hq
      have hne : q ≠ p := by
        rintro rfl
        rw [hself] at hq
        cases hq
      rw [hindex q hne] at hq
      exact h.fresh q hq
    tokens := by
      intro q
      have := h.tokens q
      rw [hbefore] at this
      rw [hcount, hbelongs]
      exact this
    working := by
      rintro q ⟨k, hk, hkn⟩
      rw [hcount, hdrives]
      by_cases hq : q = p
      · subst hq
        rw [hself] at hk
        cases hk
        have := h.working q hworking
        rw [hbefore, Call.drives, decide_eq_true rfl, if_pos rfl] at this
        rw [if_pos (decide_eq_true ⟨rfl, by omega⟩)]
        exact this
      · rw [hindex q hq] at hk
        have := h.working q ⟨k, hk, hkn⟩
        rw [hbefore, Call.drives, decide_eq_false (Ne.symm hq)] at this
        rw [decide_eq_false fun heq => hq heq.1.symm]
        exact this
    finished := by
      intro q hq
      rw [hcount, hdrives]
      by_cases heq : q = p
      · subst heq
        have := h.working q hworking
        rw [hbefore, Call.drives, decide_eq_true rfl, if_pos rfl] at this
        rw [decide_eq_false fun hn => hq ⟨i + 1, hself, by omega⟩, if_neg Bool.false_ne_true]
        omega
      · have := h.finished q fun ⟨k, hk, hkn⟩ => hq ⟨k, (hindex q heq).trans hk, hkn⟩
        rw [hbefore, Call.drives, decide_eq_false (Ne.symm heq)] at this
        rw [decide_eq_false fun hn => heq hn.1.symm]
        exact this
    waits := by
      intro d hd
      have hwaits := h.waits d hd
      refine ⟨hwaits.result, hwaits.pending.imp_right fun hmem => ?_, fun q hq => ?_⟩
      · rw [hstack] at hmem
        exact List.mem_cons_of_mem _ (mem_tail_of_handler rfl hmem)
      · have hne : q ≠ p := by
          rintro rfl
          cases (h.alone hstack (decide_eq_true rfl)).2.2 d hd hq
        obtain ⟨k, hk, hres, hn⟩ := hwaits.next q hq
        exact ⟨k, (hindex q hne).trans hk, hres, hn⟩
    emission := by
      have := h.emission
      rw [hstack] at this
      rwa [stack_setStack, List.filterMap_cons_none hc]
    tree := by
      intro q hq
      by_cases heq : q = p
      · exact heq ▸ h.tree p (hi ▸ Option.some_ne_none i)
      · exact h.tree q (hindex q heq ▸ hq)
    started := by
      intro j q hq
      by_cases heq : j :: q = p
      · exact h.started j q (heq ▸ hi ▸ Option.some_ne_none i)
      · exact h.started j q (hindex _ heq ▸ hq)
    ran := by
      intro q' hq'
      obtain ⟨j, q, k, rfl, hk, hle, hsome⟩ := h.ran q' hq'
      by_cases heq : q = p
      · subst heq
        cases hi.symm.trans hk
        exact ⟨j, q, i + 1, rfl, hself, Nat.le_succ_of_le hle, hsome⟩
      · exact ⟨j, q, k, rfl, (hindex q heq).trans hk, hle, hsome⟩
    results := fun q r hr => ⟨(h.results q r hr).1, (h.results q r hr).2.mono hg⟩
    before := by
      intro q k hk j hj hn
      refine State.Settled.mono ?_ hg fun _ => h.made
      by_cases heq : q = p
      · subst heq
        rw [hself] at hk
        cases hk
        rcases Nat.lt_succ_iff_lt_or_eq.mp hj with hj | rfl
        · exact h.before q i hi j hj hn
        · exact hsettled hn
      · exact h.before q k (hindex q heq ▸ hk) j hj hn
    emitted := by
      intro x hx
      refine h.emitted x ?_
      cases x with
      | own x => exact trivial
      | batch q =>
        show s.index q ≠ none
        by_cases heq : q = p
        · rw [heq, hi]
          exact Option.some_ne_none i
        · rw [← hindex q heq]
          exact hx }

theorem Inv.nextTask (h : Inv top s) (hstack : s.stack = .nextTask p :: rest) :
    Inv top (s.nextTask top p rest) := by
  obtain ⟨i, hi, hlt, hsettled⟩ : (Call.nextTask p).Ok top s :=
    h.calls _ (hstack ▸ List.mem_cons_self)
  have hrest : ∀ calls : List (Call η), ∀ d ∈ rest,
      d.Ok top ((s.setIndex p (i + 1)).setStack calls) := fun calls =>
    h.rest_ok hstack (decide_eq_true rfl) (.setIndex (i + 1) calls)
      (fun q hq _ => Function.update_of_ne hq ..) (fun _ _ _ h => h) (fun _ _ _ => rfl)
      fun _ _ hd hle => ⟨hd, hle⟩
  rw [State.nextTask, hi]
  dsimp only [Option.getD_some]
  split
  · rename_i hge
    refine ⟨h.toCore.next hstack hi hlt hsettled (fun _ => rfl) (fun q => ?_) rfl, fun d hd => ?_⟩
    · exact (decide_eq_false fun hq => absurd hq.2 (not_lt.mpr hge)).symm
    · rcases List.mem_cons.mp hd with rfl | hd
      · show Function.update s.index p (some (i + 1)) p ≠ none
        rw [Function.update_self]
        exact Option.some_ne_none _
      · exact hrest _ d hd
  · rename_i hn
    refine ⟨h.toCore.next hstack hi hlt hsettled (fun _ => rfl) (fun q => ?_) rfl, fun d hd => ?_⟩
    · exact decide_eq_decide.mpr ⟨fun hq => ⟨hq, by omega⟩, fun hq => hq.1⟩
    · rcases List.mem_cons.mp hd with rfl | hd
      · refine ⟨i + 1, Function.update_self .., by omega, fun hmem => ?_⟩
        obtain ⟨j, q, k, heq, hk, hle, -⟩ := h.ran _ hmem
        obtain ⟨rfl, rfl⟩ := List.cons.inj heq
        cases hi.symm.trans hk
        omega
      · exact hrest _ d hd

end Batch
