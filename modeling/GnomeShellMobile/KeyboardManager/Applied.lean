import GnomeShellMobile.KeyboardManager.Layouts

/-!
# KeyboardManager — the layout in effect is the one last applied

`Law` says that what is wanted is in effect when no call is pending, that until then a pending call
brings it, and that `_currentKeymap` is in effect or being set. Nothing orders the calls, and
`_currentKeymap` is written before the change has happened: the law holds of the runs whose calls
end in turn.

* `Law.doApply`: a request that makes its own calls is always fulfilled by them.
* `Law.step_iff`: the steps that keep the law.
* `run_applied_iff`: the result for all runs.
-/

namespace KeyboardManager

open State

variable {xkb : Xkb} {s t : State} {k : Keymap} {info : LayoutInfo}

theorem law_iff : Law s ↔ (∀ w ∈ s.wanted, s.BringsKeymap w.1) ∧
    (∀ w ∈ s.wanted, s.index = w.2 ∨ w.2 ∈ s.pendingIndices) ∧
    ∀ k ∈ s.currentKeymap, s.BringsKeymap k := by
  constructor
  · exact fun h => ⟨h.keymap, h.index, h.cached⟩
  · rintro ⟨hkeymap, hindex, hcached⟩
    refine ⟨fun hquiet w hw => ?_, hkeymap, hindex, hcached⟩
    obtain ⟨hkeymaps, hresumes, hindices⟩ := hquiet
    constructor
    · refine (hkeymap w hw).resolve_right fun hmem => ?_
      rw [hkeymaps] at hmem
      cases hmem
    · refine (hindex w hw).resolve_right fun hmem => ?_
      rw [State.pendingIndices, hkeymaps, hresumes, hindices] at hmem
      cases hmem

theorem Law.new (options : List String) (model : String) : Law (State.new options model) := by
  rw [law_iff]
  refine ⟨fun w hw => ?_, fun w hw => ?_, fun k hk => ?_⟩
  · cases hw
  · cases hw
  · cases hk

def Linked (s : State) : Prop :=
  ∀ info ∈ s.current, ∃ w ∈ s.wanted, w.2 = info.groupIndex

/-! ## Requests -/

section Requests

theorem doApply_wanted : (s.doApply xkb info).wanted = s.wanted := by
  rw [State.doApply]
  split <;> rfl

theorem Law.doApply (h : Law s) (info : LayoutInfo) : Law ((s.want xkb info).doApply xkb info) := by
  rw [law_iff]
  have hwanted : ∀ w ∈ ((s.want xkb info).doApply xkb info).wanted,
      w = (s.buildKeymap xkb info.group, info.groupIndex) := by
    intro w hw
    rw [doApply_wanted] at hw
    exact (Option.mem_some_iff.mp hw).symm
  have hkeymap : (s.want xkb info).buildKeymap xkb info.group = s.buildKeymap xkb info.group := rfl
  by_cases hsame : s.currentKeymap = some (s.buildKeymap xkb info.group)
  · have hskip : (s.want xkb info).doApply xkb info =
        { s.want xkb info with resumes := s.resumes ++ [info.groupIndex] } := if_pos hsame
    rw [hskip] at hwanted ⊢
    refine ⟨fun w hw => ?_, fun w hw => .inr ?_, h.cached⟩
    · rw [hwanted w hw]
      exact h.cached _ hsame
    · rw [hwanted w hw]
      simp [State.pendingIndices]
  · have hcall : (s.want xkb info).doApply xkb info =
        { s.want xkb info with
          currentKeymap := some (s.buildKeymap xkb info.group)
          keymapCalls := s.keymapCalls ++ [(s.buildKeymap xkb info.group, info.groupIndex)] } :=
      if_neg hsame
    rw [hcall] at hwanted ⊢
    refine ⟨fun w hw => .inr ?_, fun w hw => .inr ?_, fun k hk => .inr ?_⟩
    · rw [hwanted w hw]
      simp
    · rw [hwanted w hw]
      simp [State.pendingIndices]
    · obtain rfl := Option.mem_some_iff.mp hk
      simp

/-- Where something else is wanted and the calls for the keymap stay as they are, the law depends on
the new keymap only, if the index is set or brought. -/
theorem Law.want_iff {idx : ℕ} (h : Law s) (hwanted : t.wanted = some (k, idx))
    (hcached : t.currentKeymap = s.currentKeymap) (heffect : t.keymap = s.keymap)
    (hcalls : t.keymapCalls = s.keymapCalls) (hindex : t.index = idx ∨ idx ∈ t.pendingIndices) :
    Law t ↔ s.BringsKeymap k := by
  have hbrings : ∀ k, t.BringsKeymap k ↔ s.BringsKeymap k := by
    intro k
    rw [State.BringsKeymap, State.BringsKeymap, heffect, hcalls]
  have hw : ∀ w ∈ t.wanted, w = (k, idx) := by
    intro w hw
    rw [hwanted] at hw
    exact (Option.mem_some_iff.mp hw).symm
  constructor
  · exact fun hlaw => (hbrings k).mp (hlaw.keymap (k, idx) hwanted)
  · intro hkeymap
    rw [law_iff]
    refine ⟨fun w hmem => ?_, fun w hmem => ?_, fun k hk => ?_⟩
    · rw [hw w hmem]
      exact (hbrings k).mpr hkeymap
    · rw [hw w hmem]
      exact hindex
    · rw [hcached] at hk
      exact (hbrings k).mpr (h.cached k hk)

theorem Law.apply_iff (h : Law s) (hlinked : Linked s) (id : String) :
    Law (s.apply xkb id) ↔ InTurn xkb s (.apply id) := by
  rw [State.apply, InTurn]
  cases hfind : s.layoutInfos.find? (·.id = id) with
  | none => exact iff_of_true h fun info hinfo => by cases hinfo
  | some info =>
    have hforall : (∀ i ∈ some info, s.inCurrentGroup i = true →
        s.BringsKeymap (s.buildKeymap xkb i.group)) ↔
        (s.inCurrentGroup info = true → s.BringsKeymap (s.buildKeymap xkb info.group)) := by
      constructor
      · exact fun h' => h' info rfl
      · rintro h' i hi
        obtain rfl := Option.mem_some_iff.mp hi
        exact h'
    rw [hforall]
    have hcurrent : ∀ u : State, Law { u with current := some info } ↔ Law u := by
      intro u
      exact ⟨fun h' => ⟨h'.settled, h'.keymap, h'.index, h'.cached⟩,
        fun h' => ⟨h'.settled, h'.keymap, h'.index, h'.cached⟩⟩
    refine (hcurrent ((s.want xkb info).request xkb info)).trans ?_
    rw [State.request]
    by_cases hgroup : s.inCurrentGroup info = true
    · -- only the index is set: the keymap has to be right already
      rw [if_pos (show (s.want xkb info).inCurrentGroup info = true from hgroup)]
      refine Iff.trans ?_ (⟨fun h' _ => h', fun h' => h' hgroup⟩ :
        s.BringsKeymap (s.buildKeymap xkb info.group) ↔ _)
      split
      · exact h.want_iff (k := s.buildKeymap xkb info.group) rfl rfl rfl rfl
          (.inr (by simp [State.pendingIndices, State.applyLayoutGroupIndex]))
      · next hsame =>
        -- the index is that of the current layout, which was wanted before
        obtain ⟨current, hmem, hidx⟩ := Option.map_eq_some_iff.mp (not_not.mp hsame)
        obtain ⟨w, hw, hwidx⟩ := hlinked current hmem
        have hindex := h.index w hw
        rw [hwidx.trans hidx] at hindex
        exact h.want_iff (k := s.buildKeymap xkb info.group) rfl rfl rfl rfl hindex
    · rw [if_neg (show ¬ (s.want xkb info).inCurrentGroup info = true from hgroup)]
      exact iff_of_true (h.doApply info) fun h' => absurd h' hgroup

end Requests

/-! ## The ends of the calls -/

section Ends

variable {i : ℕ}

theorem mem_of_getElem? {α : Type*} {l : List α} {a : α} (h : l[i]? = some a) (x : α) :
    x ∈ l ↔ x = a ∨ x ∈ l.eraseIdx i := by
  obtain ⟨hlt, rfl⟩ := List.getElem?_eq_some_iff.mp h
  rw [← (List.getElem_cons_eraseIdx_perm hlt).mem_iff, List.mem_cons]

theorem Law.keymapDone_iff {call : Keymap × ℕ} {ok : Bool} (h : Law s)
    (hcall : s.keymapCalls[i]? = some call) (hstep : step xkb s (.keymapDone i ok) = some t) :
    Law t ↔ InTurn xkb s (.keymapDone i ok) := by
  have hturn : InTurn xkb s (.keymapDone i ok) ↔
      KeymapInTurn { s with keymapCalls := s.keymapCalls.eraseIdx i } call ok := by
    rw [InTurn, hcall]
    constructor
    · exact fun h' => h' call rfl
    · rintro h' c hc
      obtain rfl := Option.mem_some_iff.mp hc
      exact h'
  rw [hturn, law_iff, KeymapInTurn]
  rw [step, hcall] at hstep
  cases ok with
  | true =>
    cases hstep
    have hindex : ∀ w ∈ s.wanted, s.index = w.2 ∨
        w.2 ∈ s.indexCalls ++ [call.2] ++ s.resumes ++ (s.keymapCalls.eraseIdx i).map Prod.snd := by
      intro w hw
      refine (h.index w hw).imp_right fun hmem => ?_
      rw [State.pendingIndices, List.mem_append, List.mem_append] at hmem
      rcases hmem with (hmem | hmem) | hmem
      · simp [hmem]
      · simp [hmem]
      · obtain ⟨c, hc, hidx⟩ := List.mem_map.mp hmem
        rcases (mem_of_getElem? hcall c).mp hc with rfl | hc
        · simp [hidx]
        · exact List.mem_append_right _ (List.mem_map.mpr ⟨c, hc, hidx⟩)
    have hset : ∀ k, (some call.1 = some k ∨ k ∈ (s.keymapCalls.eraseIdx i).map Prod.fst) ↔
        (k = call.1 ∨ k ∈ (s.keymapCalls.eraseIdx i).map Prod.fst) := by
      intro k
      rw [Option.some.injEq, eq_comm]
    rw [if_pos rfl]
    constructor
    · rintro ⟨hkeymap, -, hcached⟩
      exact ⟨fun w hw => (hset w.1).mp (hkeymap w hw), fun k hk => (hset k).mp (hcached k hk)⟩
    · rintro ⟨hkeymap, hcached⟩
      exact ⟨fun w hw => (hset w.1).mpr (hkeymap w hw), hindex,
        fun k hk => (hset k).mpr (hcached k hk)⟩
  | false =>
    cases hstep
    rw [if_neg Bool.false_ne_true]
    constructor
    · rintro ⟨hkeymap, hindex, hcached⟩
      exact ⟨fun w hw => ⟨hkeymap w hw, hindex w hw⟩, hcached⟩
    · rintro ⟨hboth, hcached⟩
      exact ⟨fun w hw => (hboth w hw).1, fun w hw => (hboth w hw).2, hcached⟩

theorem Law.resume (h : Law s) {idx : ℕ} (hidx : s.resumes[i]? = some idx) :
    Law ({ s with resumes := s.resumes.eraseIdx i }.applyLayoutGroupIndex idx) := by
  rw [law_iff]
  refine ⟨h.keymap, fun w hw => (h.index w hw).imp_right fun hmem => ?_, h.cached⟩
  show w.2 ∈ s.indexCalls ++ [idx] ++ s.resumes.eraseIdx i ++ s.keymapCalls.map Prod.snd
  rw [State.pendingIndices, List.mem_append, List.mem_append] at hmem
  rcases hmem with (hmem | hmem) | hmem
  · simp [hmem]
  · rcases (mem_of_getElem? hidx w.2).mp hmem with heq | hmem
    · simp [heq]
    · simp [hmem]
  · exact List.mem_append_right _ hmem

theorem Law.indexDone_iff {idx : ℕ} {ok : Bool} (h : Law s) (hidx : s.indexCalls[i]? = some idx)
    (hstep : step xkb s (.indexDone i ok) = some t) : Law t ↔ InTurn xkb s (.indexDone i ok) := by
  have hturn : InTurn xkb s (.indexDone i ok) ↔
      IndexInTurn { s with indexCalls := s.indexCalls.eraseIdx i } idx ok := by
    rw [InTurn, hidx]
    constructor
    · exact fun h' => h' idx rfl
    · rintro h' c hc
      obtain rfl := Option.mem_some_iff.mp hc
      exact h'
  rw [hturn, law_iff, IndexInTurn]
  rw [step, hidx] at hstep
  cases ok with
  | true =>
    cases hstep
    constructor
    · rintro ⟨-, hindex, -⟩ w hw
      exact (hindex w hw).imp_left Eq.symm
    · exact fun h' => ⟨h.keymap, fun w hw => (h' w hw).imp_left Eq.symm, h.cached⟩
  | false =>
    cases hstep
    exact ⟨fun h' => h'.2.1, fun h' => ⟨h.keymap, h', h.cached⟩⟩

end Ends

/-! ## All runs -/

theorem Linked.step (e : Event) (h : Linked s) (hstep : step xkb s e = some t) : Linked t := by
  cases e with
  | setUserLayouts ids =>
    cases hstep
    intro info hinfo
    cases hinfo
  | apply id =>
    cases hstep
    rw [State.apply]
    split
    · exact h
    · next info _ =>
      intro i hi
      obtain rfl := Option.mem_some_iff.mp hi
      refine ⟨(s.buildKeymap xkb info.group, info.groupIndex), ?_, rfl⟩
      show ((s.want xkb info).request xkb info).wanted = _
      rw [State.request]
      split
      · split <;> rfl
      · rw [doApply_wanted]
        rfl
  | reapply =>
    cases hstep
    rw [State.reapply]
    split
    · exact h
    · next info hcurrent =>
      intro i hi
      have hsame : ((s.want xkb info).doApply xkb info).current = s.current := by
        rw [State.doApply]
        split <;> rfl
      rw [hsame, hcurrent] at hi
      obtain rfl := Option.mem_some_iff.mp hi
      refine ⟨(s.buildKeymap xkb info.group, info.groupIndex), ?_, rfl⟩
      rw [doApply_wanted]
      rfl
  | setKeyboardOptions options =>
    cases hstep
    exact h
  | setKeyboardModel model =>
    cases hstep
    exact h
  | keymapDone i ok =>
    rw [KeyboardManager.step] at hstep
    split at hstep
    · cases hstep
    · cases ok <;> cases hstep <;> exact h
  | resume i =>
    rw [KeyboardManager.step] at hstep
    split at hstep
    · cases hstep
    · cases hstep
      exact h
  | indexDone i ok =>
    rw [KeyboardManager.step] at hstep
    split at hstep
    · cases hstep
    · cases ok <;> cases hstep <;> exact h

theorem Law.step_iff (e : Event) (hlinked : Linked s) (h : Law s)
    (hstep : step xkb s e = some t) : Law t ↔ InTurn xkb s e := by
  cases e with
  | setUserLayouts ids | setKeyboardOptions options | setKeyboardModel model =>
    cases hstep
    exact iff_of_true ⟨h.settled, h.keymap, h.index, h.cached⟩ trivial
  | apply id =>
    cases hstep
    exact h.apply_iff hlinked id
  | reapply =>
    cases hstep
    refine iff_of_true ?_ trivial
    rw [State.reapply]
    split
    · exact h
    · exact h.doApply _
  | keymapDone i ok =>
    cases hcall : s.keymapCalls[i]? with
    | none =>
      rw [KeyboardManager.step, hcall] at hstep
      cases hstep
    | some call => exact h.keymapDone_iff hcall hstep
  | resume i =>
    rw [KeyboardManager.step] at hstep
    split at hstep
    · cases hstep
    · next idx hidx =>
      cases hstep
      exact iff_of_true (h.resume hidx) trivial
  | indexDone i ok =>
    cases hidx : s.indexCalls[i]? with
    | none =>
      rw [KeyboardManager.step, hidx] at hstep
      cases hstep
    | some idx => exact h.indexDone_iff hidx hstep

/-- **The layout in effect.** All along a run, what is wanted is in effect when no call is pending and
brought by a pending call until then, and only requests for a keymap in effect or being set are
skipped, if and only if each of the steps is in turn. -/
theorem run_applied_iff (options : List String) (model : String) {es : List Event}
    (hrun : Runs.run (step xkb) (State.new options model) es = some t) :
    Runs.Always (step xkb) Law (State.new options model) es ↔
      Runs.Allowed (step xkb) (InTurn xkb) (State.new options model) es :=
  Runs.always_iff_allowed_of_inv (I := Linked) (fun info hinfo => by cases hinfo)
    (Law.new options model) (fun _ e _ hlinked hstep => hlinked.step e hstep)
    (fun _ e _ hlinked h hstep => h.step_iff e hlinked hstep) hrun

def plainXkb : Xkb where
  getLayoutInfo id := some (id, "")
  localeLayoutInfo := ("us", "")

def appliedInTurn : List Event :=
  [.setUserLayouts ["de", "fr", "it", "es"], .apply "de", .keymapDone 0 true, .indexDone 0 true,
    .apply "fr", .indexDone 0 true, .apply "es", .keymapDone 0 true, .indexDone 0 true,
    .setKeyboardOptions ["compose:ralt"], .reapply, .keymapDone 0 true, .indexDone 0 true]

theorem run_applied_inTurn :
    ∃ t, Runs.run (step plainXkb) (State.new [] "pc105") appliedInTurn = some t ∧
      Runs.Always (step plainXkb) Law (State.new [] "pc105") appliedInTurn := by
  obtain ⟨t, hrun⟩ :
      ∃ t, Runs.run (step plainXkb) (State.new [] "pc105") appliedInTurn = some t :=
    Option.isSome_iff_exists.mp (by decide)
  exact ⟨t, hrun, (run_applied_iff [] "pc105" hrun).mpr (by decide)⟩

def overtaken : List Event :=
  [.setUserLayouts ["de", "fr"], .apply "de", .apply "fr", .keymapDone 0 true, .indexDone 0 true,
    .indexDone 0 true]

def failedOnce : List Event :=
  [.setUserLayouts ["de", "fr"], .apply "de", .keymapDone 0 false, .reapply, .resume 0,
    .indexDone 0 true]

def otherOptions : List Event :=
  [.setUserLayouts ["de", "fr"], .apply "de", .keymapDone 0 true, .indexDone 0 true,
    .setKeyboardOptions ["compose:ralt"], .apply "fr", .indexDone 0 true]

theorem not_law_of_settled {es : List Event}
    (hend : (Runs.run (step plainXkb) (State.new [] "pc105") es).map (fun t =>
      decide (t.keymapCalls = [] ∧ t.resumes = [] ∧ t.indexCalls = [] ∧ t.wanted.isSome ∧
        t.wanted ≠ t.keymap.map fun k => (k, t.index))) = some true) :
    ∃ t, Runs.run (step plainXkb) (State.new [] "pc105") es = some t ∧ ¬ Law t := by
  obtain ⟨t, hrun, hstate⟩ := Option.map_eq_some_iff.mp hend
  obtain ⟨hkeymaps, hresumes, hindices, hwanted, hne⟩ := of_decide_eq_true hstate
  obtain ⟨w, hw⟩ := Option.isSome_iff_exists.mp hwanted
  refine ⟨t, hrun, fun hlaw => hne ?_⟩
  obtain ⟨hkeymap, hindex⟩ := hlaw.settled ⟨hkeymaps, hresumes, hindices⟩ w hw
  rw [hw, hkeymap, hindex]
  rfl

theorem not_run_applied :
    (∃ t, Runs.run (step plainXkb) (State.new [] "pc105") overtaken = some t ∧ ¬ Law t) ∧
      (∃ t, Runs.run (step plainXkb) (State.new [] "pc105") failedOnce = some t ∧ ¬ Law t) ∧
      ∃ t, Runs.run (step plainXkb) (State.new [] "pc105") otherOptions = some t ∧ ¬ Law t := by
  refine ⟨?_, ?_, ?_⟩
  · exact not_law_of_settled (by decide)
  · exact not_law_of_settled (by decide)
  · exact not_law_of_settled (by decide)

end KeyboardManager
