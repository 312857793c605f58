import GnomeShellMobile.InjectionManager.Methods

/-!
# InjectionManager — what is left after `clear`

* `savedAt`: what is saved of a method.
* `restoredOwn`, `restoredVfunc`: what `clear` makes of it, and `clear_of_hookable`.
* `law_iff`: what `clear` owes, method by method.
* `run_cleared_iff`: it is owed along a run exactly when each call is careful.
-/

namespace InjectionManager

variable {Obj V : Type*} [DecidableEq Obj] {C : Classes Obj} {s t u : State Obj V}
  {p : Obj} {m : String}

/-! ## What is saved -/

section Saved

def State.savedAt (s : State Obj V) (p : Obj) (m : String) : Option (Option V) :=
  (s.savedMethods.get? p).bind (·.get? m)

theorem savedAt_eq_of_savedMethods (h : t.savedMethods = s.savedMethods) :
    t.savedAt = s.savedAt := by
  funext p m
  rw [State.savedAt, h]
  rfl

theorem savedAt_saveMethod (C : Classes Obj) (s : State Obj V) (p p' : Obj) (m m' : String) :
    (s.saveMethod C p m).savedAt p' m' =
      if p' = p ∧ m' = m then some (s.lookup C p m) else s.savedAt p' m' := by
  show ((s.savedMethods.set p _).get? p').bind _ = _
  rw [Dict.get?_set]
  by_cases hp : p' = p
  · subst hp
    rw [if_pos rfl, Option.bind_some, Dict.get?_set]
    by_cases hm : m' = m
    · rw [if_pos hm, if_pos ⟨rfl, hm⟩]
    · rw [if_neg hm, if_neg fun h => hm h.2, State.savedAt]
      cases s.savedMethods.get? p' with
      | none => rfl
      | some methods => rfl
  · rw [if_neg hp, if_neg fun h => hp h.1]
    rfl

theorem savedAt_forget {methods : Dict String (Option V)} (h : s.savedMethods.get? p = some methods)
    (m : String) (p' : Obj) (m' : String) : (s.forget p methods m).savedAt p' m' =
      if p' = p ∧ m' = m then none else s.savedAt p' m' := by
  have hget : (s.forget p methods m).savedAt p' m' =
      if p' = p then (methods.erase m).get? m' else s.savedAt p' m' := by
    rw [State.forget, State.savedAt]
    dsimp only
    split
    · next hsize =>
      rw [Dict.get?_erase]
      split
      · exact (Dict.get?_of_size_eq_zero hsize m').symm
      · rfl
    · rw [Dict.get?_set]
      split
      · rfl
      · rfl
  rw [hget]
  by_cases hp : p' = p
  · subst hp
    rw [if_pos rfl, Dict.get?_erase]
    by_cases hm : m' = m
    · rw [if_pos hm, if_pos ⟨rfl, hm⟩]
    · rw [if_neg hm, if_neg fun h => hm h.2, State.savedAt, h]
      rfl
  · rw [if_neg hp, if_neg fun h => hp h.1]

theorem update_update {α β γ : Type*} [DecidableEq α] [DecidableEq β] (f : α → β → γ) (a a' : α)
    (b b' : β) (c : γ) : Function.update f a (Function.update (f a) b c) a' b' =
      if a' = a ∧ b' = b then c else f a' b' := by
  by_cases ha : a' = a
  · subst ha
    rw [Function.update_self]
    by_cases hb : b' = b
    · rw [hb, Function.update_self, if_pos ⟨rfl, rfl⟩]
    · rw [Function.update_of_ne hb, if_neg fun h => hb h.2]
  · rw [Function.update_of_ne ha, if_neg fun h => ha h.1]

theorem setOwn_own (s : State Obj V) (p p' : Obj) (m m' : String) (v : Option (Option V)) :
    (s.setOwn p m v).own p' m' = if p' = p ∧ m' = m then v else s.own p' m' :=
  update_update s.own p p' m m' v

theorem setVfunc_vfuncs (s : State Obj V) (p p' : Obj) (m m' : String) (f : V) :
    (s.setVfunc p m f).vfuncs p' m' = if p' = p ∧ m' = m then some f else s.vfuncs p' m' :=
  update_update s.vfuncs p p' m m' (some f)

end Saved

/-! ## What is restored -/

section Restored

variable {ks : List (Obj × String)}

/-- The own property that `clear` leaves. -/
def State.restoredOwn (s : State Obj V) (p : Obj) (m : String) : Option (Option V) :=
  match s.savedAt p m with
  | none => s.own p m
  | some none => none
  | some (some f) => if isVfunc m then s.own p m else some (some f)

/-- The virtual function that `clear` leaves. -/
def State.restoredVfunc (s : State Obj V) (p : Obj) (m : String) : Option V :=
  match s.savedAt p m with
  | some (some f) => if isVfunc m then some f else s.vfuncs p m
  | _ => s.vfuncs p m

theorem restoredOwn_of_undefined (h : s.savedAt p m = some none) : s.restoredOwn p m = none := by
  rw [State.restoredOwn, h]

theorem restoredOwn_of_some {f : V} (h : s.savedAt p m = some (some f)) :
    s.restoredOwn p m = if isVfunc m then s.own p m else some (some f) := by
  rw [State.restoredOwn, h]

theorem restoredVfunc_of_undefined (h : s.savedAt p m = some none) :
    s.restoredVfunc p m = s.vfuncs p m := by
  rw [State.restoredVfunc, h]

theorem restoredVfunc_of_some {f : V} (h : s.savedAt p m = some (some f)) :
    s.restoredVfunc p m = if isVfunc m then some f else s.vfuncs p m := by
  rw [State.restoredVfunc, h]

theorem restoredOwn_of_none (h : s.savedAt p m = none) : s.restoredOwn p m = s.own p m := by
  rw [State.restoredOwn, h]

theorem restoredVfunc_of_none (h : s.savedAt p m = none) : s.restoredVfunc p m = s.vfuncs p m := by
  rw [State.restoredVfunc, h]

def Hookable (C : Classes Obj) (s : State Obj V) (p : Obj) (m : String) : Prop :=
  ∀ f, s.savedAt p m = some (some f) → isVfunc m = true → C.hooks p m = true

/-- The methods `ks` are restored, and nothing else is. -/
structure Restored (s t : State Obj V) (ks : List (Obj × String)) : Prop where
  own : ∀ p m, t.own p m = if (p, m) ∈ ks then s.restoredOwn p m else s.own p m
  vfuncs : ∀ p m, t.vfuncs p m = if (p, m) ∈ ks then s.restoredVfunc p m else s.vfuncs p m
  savedAt : ∀ p m, t.savedAt p m = if (p, m) ∈ ks then none else s.savedAt p m

theorem Restored.restoredOwn_eq (h : Restored s t ks) (p : Obj)
    (m : String) : t.restoredOwn p m = s.restoredOwn p m := by
  rw [State.restoredOwn, h.savedAt, h.own]
  by_cases hmem : (p, m) ∈ ks
  · rw [if_pos hmem, if_pos hmem]
  · rw [if_neg hmem, if_neg hmem]
    rfl

theorem Restored.restoredVfunc_eq (h : Restored s t ks) (p : Obj)
    (m : String) : t.restoredVfunc p m = s.restoredVfunc p m := by
  rw [State.restoredVfunc, h.savedAt, h.vfuncs]
  by_cases hmem : (p, m) ∈ ks
  · rw [if_pos hmem, if_pos hmem]
  · rw [if_neg hmem, if_neg hmem]
    rfl

theorem Restored.refl (s : State Obj V) : Restored s s [] where
  own _ _ := (if_neg List.not_mem_nil).symm
  vfuncs _ _ := (if_neg List.not_mem_nil).symm
  savedAt _ _ := (if_neg List.not_mem_nil).symm

theorem Restored.cons {k : Obj × String} (h : Restored s t [k])
    (h' : Restored t u ks) : Restored s u (k :: ks) where
  own p m := by
    rw [h'.own, h.restoredOwn_eq, h.own]
    simp only [List.mem_cons]
    split
    · next hmem => rw [if_pos (Or.inr hmem)]
    · next hmem =>
      simp only [hmem, or_false, List.not_mem_nil]
  vfuncs p m := by
    rw [h'.vfuncs, h.restoredVfunc_eq, h.vfuncs]
    simp only [List.mem_cons]
    split
    · next hmem => rw [if_pos (Or.inr hmem)]
    · next hmem =>
      simp only [hmem, or_false, List.not_mem_nil]
  savedAt p m := by
    rw [h'.savedAt, h.savedAt]
    simp only [List.mem_cons]
    split
    · next hmem => rw [if_pos (Or.inr hmem)]
    · next hmem =>
      simp only [hmem, or_false, List.not_mem_nil]

theorem Restored.hookable (h : Restored s t ks) (hhook : Hookable C s p m) : Hookable C t p m := by
  intro f hsaved
  rw [h.savedAt] at hsaved
  split at hsaved
  · cases hsaved
  · exact hhook f hsaved

end Restored

/-! ## `restoreMethod` and `clear` -/

section Clear

theorem Restored.forget {methods : Dict String (Option V)} (h : t.savedMethods.get? p = some methods)
    (hsaved : t.savedAt = s.savedAt)
    (hown : ∀ p' m', t.own p' m' = if p' = p ∧ m' = m then s.restoredOwn p m else s.own p' m')
    (hvfuncs : ∀ p' m', t.vfuncs p' m' =
      if p' = p ∧ m' = m then s.restoredVfunc p m else s.vfuncs p' m') :
    Restored s (t.forget p methods m) [(p, m)] where
  own p' m' := by
    simp only [List.mem_singleton, Prod.mk.injEq]
    show t.own p' m' = _
    rw [hown]
    split
    · next heq => rw [heq.1, heq.2]
    · rfl
  vfuncs p' m' := by
    simp only [List.mem_singleton, Prod.mk.injEq]
    show t.vfuncs p' m' = _
    rw [hvfuncs]
    split
    · next heq => rw [heq.1, heq.2]
    · rfl
  savedAt p' m' := by
    simp only [List.mem_singleton, Prod.mk.injEq]
    rw [savedAt_forget h, hsaved]

theorem restoreMethod_of_saved {v : Option V} (hsaved : s.savedAt p m = some v) :
    (Hookable C s p m ∧ ∃ t, s.restoreMethod C p m = .ok t ∧ Restored s t [(p, m)]) ∨
      ¬ Hookable C s p m ∧ s.restoreMethod C p m = .error s := by
  obtain ⟨methods, hget, hmethod⟩ := Option.bind_eq_some_iff.mp hsaved
  rw [State.restoreMethod, hget]
  dsimp only
  rw [hmethod]
  cases v with
  | none =>
    have hown := restoredOwn_of_undefined hsaved
    have hvfunc := restoredVfunc_of_undefined hsaved
    refine Or.inl ⟨fun f hf => ?_, _, rfl, ?_⟩
    · rw [hsaved] at hf
      cases hf
    · refine Restored.forget hget (savedAt_eq_of_savedMethods rfl) ?_ ?_
      · intro p' m'
        rw [setOwn_own, hown]
      · intro p' m'
        rw [hvfunc]
        split
        · next heq => rw [heq.1, heq.2]; rfl
        · rfl
  | some f =>
    have hown := restoredOwn_of_some hsaved
    have hvfunc := restoredVfunc_of_some hsaved
    dsimp only [Option.join_some]
    rw [State.installMethod]
    by_cases hname : isVfunc m = true
    · rw [if_pos hname] at hown hvfunc ⊢
      by_cases hhooks : C.hooks p m = true
      · rw [if_pos hhooks]
        refine Or.inl ⟨fun _ _ _ => hhooks, _, rfl, ?_⟩
        refine Restored.forget hget (savedAt_eq_of_savedMethods rfl) ?_ ?_
        · intro p' m'
          rw [hown]
          split
          · next heq => rw [heq.1, heq.2]; rfl
          · rfl
        · intro p' m'
          rw [setVfunc_vfuncs, hvfunc]
      · rw [if_neg hhooks]
        exact Or.inr ⟨fun h => hhooks (h f hsaved hname), rfl⟩
    · rw [if_neg hname] at hown hvfunc ⊢
      refine Or.inl ⟨fun _ _ h => absurd h hname, _, rfl, ?_⟩
      refine Restored.forget hget (savedAt_eq_of_savedMethods rfl) ?_ ?_
      · intro p' m'
        rw [setOwn_own, hown]
      · intro p' m'
        rw [hvfunc]
        split
        · next heq => rw [heq.1, heq.2]; rfl
        · rfl

/-- The loop of `clear` over the methods `ks`. Induction on them. -/
theorem foldlM_restoreMethod {ks : List (Obj × String)} (hnodup : ks.Nodup)
    (hsaved : ∀ k ∈ ks, s.savedAt k.1 k.2 ≠ none) : ((∀ k ∈ ks, Hookable C s k.1 k.2) ∧
      ∃ t, ks.foldlM (fun s k => s.restoreMethod C k.1 k.2) s = .ok t ∧ Restored s t ks) ∨
    ((¬ ∀ k ∈ ks, Hookable C s k.1 k.2) ∧
      ∃ t, ks.foldlM (fun s k => s.restoreMethod C k.1 k.2) s = .error t) := by
  induction ks generalizing s with
  | nil => exact Or.inl ⟨fun k hk => (List.not_mem_nil hk).elim, s, rfl, Restored.refl s⟩
  | cons k ks ih =>
    obtain ⟨hnot, hnodup⟩ := List.nodup_cons.mp hnodup
    obtain ⟨v, hv⟩ := Option.ne_none_iff_exists'.mp (hsaved k List.mem_cons_self)
    rw [List.foldlM_cons]
    obtain ⟨hhook, t, hok, hrestored⟩ | ⟨hhook, herror⟩ := restoreMethod_of_saved (C := C) hv
    · have hother : ∀ k' ∈ ks, t.savedAt k'.1 k'.2 = s.savedAt k'.1 k'.2 := by
        intro k' hk'
        have hne : k' ≠ k := fun heq => hnot (heq ▸ hk')
        rw [hrestored.savedAt, if_neg fun hmem => hne (List.mem_singleton.mp hmem)]
      have hsame : ∀ k' ∈ ks, (Hookable C t k'.1 k'.2 ↔ Hookable C s k'.1 k'.2) := by
        intro k' hk'
        rw [Hookable, Hookable, hother k' hk']
      rw [hok]
      obtain ⟨hall, u, hrest, hrestored'⟩ | ⟨hall, u, hrest⟩ := ih hnodup fun k' hk' => by
        rw [hother k' hk']
        exact hsaved k' (List.mem_cons_of_mem _ hk')
      · refine Or.inl ⟨List.forall_mem_cons.mpr ⟨hhook, fun k' hk' => ?_⟩, u, hrest,
          hrestored.cons hrestored'⟩
        exact (hsame k' hk').mp (hall k' hk')
      · refine Or.inr ⟨fun h => hall fun k' hk' => ?_, u, hrest⟩
        exact (hsame k' hk').mpr (h k' (List.mem_cons_of_mem _ hk'))
    · rw [herror]
      exact Or.inr ⟨fun h => hhook (h k List.mem_cons_self), s, rfl⟩

/-- The methods that are overridden, in the order of `clear`. -/
def State.overridden (s : State Obj V) : List (Obj × String) :=
  s.savedMethods.entries.flatMap fun e => e.2.entries.map fun f => (e.1, f.1)

theorem mem_overridden : (p, m) ∈ s.overridden ↔ s.savedAt p m ≠ none := by
  rw [State.overridden, List.mem_flatMap, State.savedAt, Option.ne_none_iff_exists']
  simp only [Option.bind_eq_some_iff, List.mem_map, Prod.mk.injEq]
  constructor
  · rintro ⟨⟨p', methods⟩, hmem, ⟨m', v⟩, hmem', rfl, rfl⟩
    exact ⟨v, methods, Dict.get?_eq_some.mpr hmem, Dict.get?_eq_some.mpr hmem'⟩
  · rintro ⟨v, methods, hget, hget'⟩
    exact ⟨(p, methods), Dict.get?_eq_some.mp hget, (m, v), Dict.get?_eq_some.mp hget', rfl, rfl⟩

omit [DecidableEq Obj] in
theorem nodup_overridden (s : State Obj V) : s.overridden.Nodup := by
  rw [State.overridden, List.nodup_flatMap]
  constructor
  · rintro ⟨p, methods⟩ -
    have hinj : Function.Injective fun m : String => (p, m) := fun _ _ h => (Prod.mk.inj h).2
    have hkeys := methods.nodup.map hinj
    rwa [List.map_map] at hkeys
  · refine (List.pairwise_map.mp s.savedMethods.nodup).imp fun hne => ?_
    intro k hk hk'
    obtain ⟨f, -, rfl⟩ := List.mem_map.mp hk
    obtain ⟨f', -, heq⟩ := List.mem_map.mp hk'
    exact hne (Prod.mk.inj heq).1.symm

/-- The two loops of `clear` are one. Induction on the prototypes. -/
theorem clear_eq (s : State Obj V) :
    s.clear C = s.overridden.foldlM (fun s k => s.restoreMethod C k.1 k.2) s := by
  have hloops : ∀ (l : List (Obj × Dict String (Option V))) (s : State Obj V),
      l.foldlM (fun s e => e.2.entries.foldlM (fun s f => s.restoreMethod C e.1 f.1) s) s =
        (l.flatMap fun e => e.2.entries.map fun f => (e.1, f.1)).foldlM
          (fun s k => s.restoreMethod C k.1 k.2) s := by
    intro l
    induction l with
    | nil => intro s; rfl
    | cons e l ih =>
      intro s
      rw [List.foldlM_cons, List.flatMap_cons, List.foldlM_append, List.foldlM_map]
      congr 1
      funext t
      exact ih t
  exact hloops _ s

theorem clear_cases (C : Classes Obj) (s : State Obj V) :
    ((∀ p m, Hookable C s p m) ∧ ∃ t, s.clear C = .ok t ∧ t.own = s.restoredOwn ∧
      t.vfuncs = s.restoredVfunc ∧ ∀ p m, t.savedAt p m = none) ∨
    ((¬ ∀ p m, Hookable C s p m) ∧ ∃ t, s.clear C = .error t) := by
  have hiff : (∀ k ∈ s.overridden, Hookable C s k.1 k.2) ↔ ∀ p m, Hookable C s p m := by
    constructor
    · intro h p m f hsaved
      refine h (p, m) (mem_overridden.mpr ?_) f hsaved
      rw [hsaved]
      exact Option.some_ne_none _
    · exact fun h k _ => h k.1 k.2
  rw [clear_eq, ← hiff]
  obtain ⟨hall, t, hok, hrestored⟩ | herror :=
    foldlM_restoreMethod (C := C) (nodup_overridden s) fun k hk => mem_overridden.mp hk
  · refine Or.inl ⟨hall, t, hok, ?_, ?_, fun p m => ?_⟩
    · funext p m
      rw [hrestored.own]
      split
      · rfl
      · next hnot => exact (restoredOwn_of_none (not_not.mp (mt mem_overridden.mpr hnot))).symm
    · funext p m
      rw [hrestored.vfuncs]
      split
      · rfl
      · next hnot => exact (restoredVfunc_of_none (not_not.mp (mt mem_overridden.mpr hnot))).symm
    · rw [hrestored.savedAt]
      split
      · rfl
      · next hnot => exact not_not.mp (mt mem_overridden.mpr hnot)
  · exact Or.inr herror

end Clear

/-! ## What is owed -/

section Laws

variable {s₀ : State Obj V}

omit [DecidableEq Obj] in
theorem call_of_own (h : t.own = s₀.own)
    (hvfuncs : ∀ p m, isVfunc m = true → t.vfuncs p m = s₀.vfuncs p m) : t.call C = s₀.call C := by
  funext p m
  rw [State.call, State.call]
  split
  · next hname => exact hvfuncs p m hname
  · rw [State.lookup, State.lookup, h]

theorem restoreMethod_alone (C : Classes Obj) (s : State Obj V) (p : Obj) (m : String) {p' : Obj}
    {m' : String} (hne : (p', m') ≠ (p, m)) :
    (leaves (s.restoreMethod C p m)).own p' m' = s.own p' m' ∧
      (leaves (s.restoreMethod C p m)).vfuncs p' m' = s.vfuncs p' m' := by
  have hother : ¬ (p' = p ∧ m' = m) := fun h => hne (Prod.ext h.1 h.2)
  rw [State.restoreMethod]
  split
  · exact ⟨rfl, rfl⟩
  · next methods hget =>
    split
    · refine ⟨?_, rfl⟩
      show (s.setOwn p m none).own p' m' = s.own p' m'
      rw [setOwn_own, if_neg hother]
    · next f hf =>
      rw [State.installMethod]
      split
      · next t herror =>
        split at herror
        · split at herror
          · cases herror
          · cases herror
            exact ⟨rfl, rfl⟩
        · cases herror
      · next t hok =>
        split at hok
        · split at hok
          · cases hok
            refine ⟨rfl, ?_⟩
            show (s.setVfunc p m f).vfuncs p' m' = s.vfuncs p' m'
            rw [setVfunc_vfuncs, if_neg hother]
          · cases hok
        · cases hok
          refine ⟨?_, rfl⟩
          show (s.setOwn p m (some (some f))).own p' m' = s.own p' m'
          rw [setOwn_own, if_neg hother]

structure Owed (C : Classes Obj) (s₀ s : State Obj V) : Prop where
  hookable : ∀ p m, Hookable C s p m
  own : ∀ p m, s.restoredOwn p m = s₀.own p m
  vfuncs : ∀ p m, isVfunc m = true → s.restoredVfunc p m = s₀.vfuncs p m

theorem law_iff : Law C s₀ s ↔ Owed C s₀ s := by
  constructor
  · intro h
    obtain ⟨t, hok, hown, hcall⟩ := h.cleared
    obtain ⟨hall, u, hok', hown', hvfuncs', -⟩ | ⟨-, u, herror⟩ := clear_cases C s
    · obtain rfl := Except.ok.inj (hok.symm.trans hok')
      refine ⟨hall, fun p m => ?_, fun p m hname => ?_⟩
      · rw [← hown', hown]
      · have hsame := congrFun (congrFun hcall p) m
        rw [State.call, State.call, if_pos hname, if_pos hname] at hsame
        rw [← hvfuncs', hsame]
    · rw [herror] at hok
      cases hok
  · intro h
    refine ⟨?_, fun p m p' m' hne => restoreMethod_alone C s p m hne⟩
    obtain ⟨-, t, hok, hown, hvfuncs, -⟩ | ⟨hnot, -⟩ := clear_cases C s
    · have hown' : t.own = s₀.own := by
        rw [hown]
        funext p m
        exact h.own p m
      refine ⟨t, hok, hown', call_of_own hown' fun p m hname => ?_⟩
      rw [hvfuncs]
      exact h.vfuncs p m hname
    · exact absurd h.hookable hnot

theorem Owed.refl (C : Classes Obj) (hsaved : s₀.savedMethods = Dict.empty) : Owed C s₀ s₀ := by
  have hnone : ∀ p m, s₀.savedAt p m = none := by
    intro p m
    rw [State.savedAt, hsaved]
    rfl
  refine ⟨fun p m f hf => ?_, fun p m => restoredOwn_of_none (hnone p m), fun p m _ =>
    restoredVfunc_of_none (hnone p m)⟩
  rw [hnone] at hf
  cases hf

end Laws

/-! ## The calls -/

section Calls

variable {s₀ : State Obj V}

/-- The virtual function after `overrideMethod`. -/
def overriddenVfunc (C : Classes Obj) (s : State Obj V) (p : Obj) (m : String) (override : Option V) :
    Option V :=
  if C.hooks p m then override.or (s.vfuncs p m) else s.vfuncs p m

/-- What the condition asks of `overrideMethod`: that what is saved now is what `clear` would have put
back before.

* A method that no object on the chain has: `clear` would have left none.
* A method that is found: `clear` would have left it, as an own property.
* A virtual function: the class can hook it up, and it is the one in effect. -/
def CarefulOverride (C : Classes Obj) (s : State Obj V) (p : Obj) (m : String)
    (override : Option V) : Prop :=
  match s.lookup C p m with
  | none =>
    s.restoredOwn p m = none ∧
      (isVfunc m = true → overriddenVfunc C s p m override = s.restoredVfunc p m)
  | some f =>
    if isVfunc m then
      C.hooks p m = true ∧ s.own p m = s.restoredOwn p m ∧ s.restoredVfunc p m = some f
    else s.restoredOwn p m = some (some f)

def Careful (C : Classes Obj) (s : State Obj V) : Event Obj V → Prop
  | .overrideMethod p m override => CarefulOverride C s p m override
  | .restoreMethod p m =>
    s.savedMethods.get? p ≠ none → s.savedAt p m = none → s.own p m = none
  | .clear => True

theorem overrideMethod_leaves (C : Classes Obj) (s : State Obj V) (p : Obj) (m : String)
    (override : Option V) : ∃ t, leaves (s.overrideMethod C p m override) = t ∧
      (∀ p' m', t.savedAt p' m' =
        if p' = p ∧ m' = m then some (s.lookup C p m) else s.savedAt p' m') ∧
      (∀ p' m', (p', m') ≠ (p, m) → t.own p' m' = s.own p' m' ∧ t.vfuncs p' m' = s.vfuncs p' m') ∧
      (isVfunc m = true → t.own p m = s.own p m ∧
        t.vfuncs p m = overriddenVfunc C s p m override) := by
  refine ⟨_, rfl, ?_⟩
  have hsave := savedAt_saveMethod C s p
  rw [overriddenVfunc]
  cases override with
  | none =>
    rw [State.overrideMethod]
    refine ⟨fun p' m' => hsave p' m m', fun _ _ _ => ⟨rfl, rfl⟩, fun _ => ⟨rfl, ?_⟩⟩
    rw [Option.none_or]
    split
    · rfl
    · rfl
  | some f =>
    rw [State.overrideMethod, State.installMethod]
    by_cases hname : isVfunc m = true
    · rw [if_pos hname]
      split
      · refine ⟨fun p' m' => hsave p' m m', fun p' m' hne => ⟨rfl, ?_⟩, fun _ => ⟨rfl, ?_⟩⟩
        · show ((s.saveMethod C p m).setVfunc p m f).vfuncs p' m' = _
          rw [setVfunc_vfuncs, if_neg fun h => hne (Prod.ext h.1 h.2)]
          rfl
        · show ((s.saveMethod C p m).setVfunc p m f).vfuncs p m = _
          rw [setVfunc_vfuncs, if_pos ⟨rfl, rfl⟩, Option.some_or]
      · exact ⟨fun p' m' => hsave p' m m', fun _ _ _ => ⟨rfl, rfl⟩, fun _ => ⟨rfl, rfl⟩⟩
    · rw [if_neg hname]
      refine ⟨fun p' m' => hsave p' m m', fun p' m' hne => ⟨?_, rfl⟩, fun h => absurd h hname⟩
      show ((s.saveMethod C p m).setOwn p m (some (some f))).own p' m' = _
      rw [setOwn_own, if_neg fun h => hne (Prod.ext h.1 h.2)]
      rfl

section

variable (h : Owed C s₀ s)
include h

theorem Owed.iff_of_other
    (hother : ∀ p' m', (p', m') ≠ (p, m) → t.savedAt p' m' = s.savedAt p' m' ∧
      t.own p' m' = s.own p' m' ∧ t.vfuncs p' m' = s.vfuncs p' m') :
    Owed C s₀ t ↔ Hookable C t p m ∧ t.restoredOwn p m = s.restoredOwn p m ∧
      (isVfunc m = true → t.restoredVfunc p m = s.restoredVfunc p m) := by
  have hrestored : ∀ p' m', (p', m') ≠ (p, m) → t.restoredOwn p' m' = s.restoredOwn p' m' ∧
      t.restoredVfunc p' m' = s.restoredVfunc p' m' := by
    intro p' m' hne
    obtain ⟨hsaved, hown, hvfuncs⟩ := hother p' m' hne
    rw [State.restoredOwn, State.restoredVfunc, hsaved, hown, hvfuncs]
    exact ⟨rfl, rfl⟩
  constructor
  · intro ht
    refine ⟨ht.hookable p m, (ht.own p m).trans (h.own p m).symm, fun hname => ?_⟩
    exact (ht.vfuncs p m hname).trans (h.vfuncs p m hname).symm
  · rintro ⟨hhook, hown, hvfuncs⟩
    refine ⟨fun p' m' => ?_, fun p' m' => ?_, fun p' m' hname => ?_⟩
    · by_cases heq : (p', m') = (p, m)
      · obtain ⟨rfl, rfl⟩ := Prod.mk.inj heq
        exact hhook
      · intro f hf
        rw [(hother p' m' heq).1] at hf
        exact h.hookable p' m' f hf
    · by_cases heq : (p', m') = (p, m)
      · obtain ⟨rfl, rfl⟩ := Prod.mk.inj heq
        exact hown.trans (h.own p' m')
      · exact (hrestored p' m' heq).1.trans (h.own p' m')
    · by_cases heq : (p', m') = (p, m)
      · obtain ⟨rfl, rfl⟩ := Prod.mk.inj heq
        exact (hvfuncs hname).trans (h.vfuncs p' m' hname)
      · exact (hrestored p' m' heq).2.trans (h.vfuncs p' m' hname)

theorem Owed.overrideMethod_iff (p : Obj) (m : String) (override : Option V) :
    Owed C s₀ (leaves (s.overrideMethod C p m override)) ↔ CarefulOverride C s p m override := by
  obtain ⟨t, ht, hsaved, hother, hsame⟩ := overrideMethod_leaves C s p m override
  rw [ht, h.iff_of_other (p := p) (m := m) fun p' m' hne => ?_]
  · have hself : t.savedAt p m = some (s.lookup C p m) := by
      rw [hsaved, if_pos ⟨rfl, rfl⟩]
    rw [CarefulOverride]
    cases hlookup : s.lookup C p m with
    | none =>
      rw [hlookup] at hself
      have hhook : Hookable C t p m := by
        intro f hf
        rw [hself] at hf
        cases hf
      rw [restoredOwn_of_undefined hself, restoredVfunc_of_undefined hself]
      dsimp only
      constructor
      · rintro ⟨-, hown, hvfunc⟩
        exact ⟨hown.symm, fun hname => (hsame hname).2.symm.trans (hvfunc hname)⟩
      · rintro ⟨hown, hvfunc⟩
        exact ⟨hhook, hown.symm, fun hname => (hsame hname).2.trans (hvfunc hname)⟩
    | some f =>
      rw [hlookup] at hself
      rw [restoredOwn_of_some hself, restoredVfunc_of_some hself]
      dsimp only
      by_cases hname : isVfunc m = true
      · rw [if_pos hname, if_pos hname, if_pos hname, (hsame hname).1]
        constructor
        · rintro ⟨hhook, hown, hvfunc⟩
          exact ⟨hhook f hself hname, hown, (hvfunc hname).symm⟩
        · rintro ⟨hhooks, hown, hvfunc⟩
          exact ⟨fun _ _ _ => hhooks, hown, fun _ => hvfunc.symm⟩
      · rw [if_neg hname, if_neg hname, if_neg hname]
        constructor
        · exact fun hall => hall.2.1.symm
        · exact fun hown => ⟨fun _ _ hvfunc => absurd hvfunc hname, hown.symm, fun hvfunc =>
            absurd hvfunc hname⟩
  · refine ⟨?_, hother p' m' hne⟩
    rw [hsaved, if_neg fun heq => hne (Prod.ext heq.1 heq.2)]

theorem Owed.restoreMethod_iff (p : Obj) (m : String) :
    Owed C s₀ (leaves (s.restoreMethod C p m)) ↔ Careful C s (.restoreMethod p m) := by
  show _ ↔ (s.savedMethods.get? p ≠ none → s.savedAt p m = none → s.own p m = none)
  cases hsaved : s.savedAt p m with
  | some v =>
    have hcareful : s.savedMethods.get? p ≠ none → some v = none → s.own p m = none :=
      fun _ hnone => (Option.some_ne_none v hnone).elim
    refine iff_of_true ?_ hcareful
    obtain ⟨-, t, hok, hrestored⟩ | ⟨hhook, -⟩ := restoreMethod_of_saved (C := C) hsaved
    · rw [hok]
      refine ⟨fun p' m' => hrestored.hookable (h.hookable p' m'), fun p' m' => ?_,
        fun p' m' hname => ?_⟩
      · exact (hrestored.restoredOwn_eq p' m').trans (h.own p' m')
      · exact (hrestored.restoredVfunc_eq p' m').trans (h.vfuncs p' m' hname)
    · exact absurd (h.hookable p m) hhook
  | none =>
    cases hget : s.savedMethods.get? p with
    | none =>
      have hsame : s.restoreMethod C p m = .ok s := by
        rw [State.restoreMethod, hget]
      rw [hsame]
      exact iff_of_true h fun hne => absurd rfl hne
    | some methods =>
      have hmethod : methods.get? m = none := by
        rw [State.savedAt, hget] at hsaved
        exact hsaved
      have hdelete : leaves (s.restoreMethod C p m) = (s.setOwn p m none).forget p methods m := by
        rw [State.restoreMethod, hget]
        dsimp only
        rw [hmethod]
        rfl
      have hforget := savedAt_forget (s := s.setOwn p m none) (m := m) hget
      rw [hdelete, h.iff_of_other (p := p) (m := m) fun p' m' hne => ?_]
      · have hself : ((s.setOwn p m none).forget p methods m).savedAt p m = none := by
          rw [hforget, if_pos ⟨rfl, rfl⟩]
        have hown : ((s.setOwn p m none).forget p methods m).own p m = none := by
          show (s.setOwn p m none).own p m = none
          rw [setOwn_own, if_pos ⟨rfl, rfl⟩]
        rw [Hookable, restoredOwn_of_none hself, restoredVfunc_of_none hself, hself, hown,
          restoredOwn_of_none hsaved, restoredVfunc_of_none hsaved]
        constructor
        · exact fun hall _ _ => hall.2.1.symm
        · intro hnone
          refine ⟨fun f hf => ?_, (hnone (Option.some_ne_none _) rfl).symm, fun _ => rfl⟩
          cases hf
      · have hother : ¬ (p' = p ∧ m' = m) := fun heq => hne (Prod.ext heq.1 heq.2)
        refine ⟨?_, ?_, rfl⟩
        · rw [hforget, if_neg hother]
          rfl
        · show (s.setOwn p m none).own p' m' = s.own p' m'
          rw [setOwn_own, if_neg hother]

theorem Owed.clear : Owed C s₀ (leaves (s.clear C)) := by
  obtain ⟨-, t, hok, hown, hvfuncs, hsaved⟩ | ⟨hnot, -⟩ := clear_cases C s
  · rw [hok]
    refine ⟨fun p m f hf => ?_, fun p m => ?_, fun p m hname => ?_⟩
    · have hsome : t.savedAt p m = some (some f) := hf
      rw [hsaved] at hsome
      cases hsome
    · show t.restoredOwn p m = _
      rw [restoredOwn_of_none (hsaved p m), hown]
      exact h.own p m
    · show t.restoredVfunc p m = _
      rw [restoredVfunc_of_none (hsaved p m), hvfuncs]
      exact h.vfuncs p m hname
  · exact absurd h.hookable hnot

end

theorem Law.step_iff (e : Event Obj V) (h : Law C s₀ s) (hstep : step C s e = some t) :
    Law C s₀ t ↔ Careful C s e := by
  rw [law_iff] at h ⊢
  cases e with
  | overrideMethod p m override =>
    cases hstep
    exact h.overrideMethod_iff p m override
  | restoreMethod p m =>
    cases hstep
    exact h.restoreMethod_iff p m
  | clear =>
    cases hstep
    exact iff_of_true h.clear trivial

/-- **What `clear` owes.** All along a run that starts without overrides, `clear` would leave the
objects as they were at first exactly when each call is careful. -/
theorem run_cleared_iff {es : List (Event Obj V)} (hsaved : s₀.savedMethods = Dict.empty)
    (hrun : Runs.run (step C) s₀ es = some t) :
    Runs.Always (step C) (Law C s₀) s₀ es ↔ Runs.Allowed (step C) (Careful C) s₀ es :=
  Runs.always_iff_allowed (law_iff.mpr (Owed.refl C hsaved))
    (fun _ e _ h hstep => Law.step_iff e h hstep) hrun

section Examples

variable [DecidableEq V]

instance (C : Classes Obj) (s : State Obj V) (p : Obj) (m : String) (override : Option V) :
    Decidable (CarefulOverride C s p m override) := by
  unfold CarefulOverride
  split <;> infer_instance

instance (C : Classes Obj) (s : State Obj V) (e : Event Obj V) : Decidable (Careful C s e) := by
  unfold Careful
  split <;> infer_instance

end Examples

/-- A class (0) with the method `f`, and a class (1) that inherits it. -/
def twoClasses : Classes ℕ where
  prototypes := fun n => if n = 1 then [0] else []
  hooks := fun _ _ => false

def withMethod : State ℕ ℕ where
  own := fun object name => if object = 0 ∧ name = "f" then some (some 10) else none
  vfuncs := fun _ _ => none
  savedMethods := Dict.empty

/-- An own method is overridden and one is injected; they are restored, and overridden again. -/
theorem run_cleared_own :
    let es : List (Event ℕ ℕ) := [.overrideMethod 0 "f" (some 20), .overrideMethod 0 "g" (some 30),
      .restoreMethod 0 "f", .overrideMethod 0 "f" (some 40), .overrideMethod 1 "h" (some 50), .clear]
    ∃ t, Runs.run (step twoClasses) withMethod es = some t ∧
      Runs.Always (step twoClasses) (Law twoClasses withMethod) withMethod es := by
  intro es
  refine ⟨_, rfl, (run_cleared_iff rfl rfl).mpr ?_⟩
  decide

def twice : List (Event ℕ ℕ) := [.overrideMethod 0 "f" (some 20), .overrideMethod 0 "f" (some 30)]

def inheritedMethod : List (Event ℕ ℕ) := [.overrideMethod 1 "f" (some 20)]

def notOverridden : List (Event ℕ ℕ) := [.overrideMethod 0 "g" (some 20), .restoreMethod 0 "f"]

theorem not_always_of_own {es : List (Event ℕ ℕ)}
    (hsome : (Runs.run (step twoClasses) withMethod es).isSome = true)
    (hown : (Runs.run (step twoClasses) withMethod es).map (fun t =>
      ((leaves (t.clear twoClasses)).own 0 "f", (leaves (t.clear twoClasses)).own 1 "f")) ≠
        some (some (some 10), none)) :
    ¬ Runs.Always (step twoClasses) (Law twoClasses withMethod) withMethod es := by
  intro halways
  obtain ⟨t, hrun⟩ := Option.isSome_iff_exists.mp hsome
  obtain ⟨u, hok, hsame, -⟩ := (halways.last hrun).cleared
  rw [hrun, Option.map_some, hok] at hown
  apply hown
  show some (u.own 0 "f", u.own 1 "f") = _
  rw [hsame]
  rfl

theorem not_run_cleared : ((Runs.run (step twoClasses) withMethod twice).isSome = true ∧
        ¬ Runs.Always (step twoClasses) (Law twoClasses withMethod) withMethod twice) ∧
      ((Runs.run (step twoClasses) withMethod inheritedMethod).isSome = true ∧
        ¬ Runs.Always (step twoClasses) (Law twoClasses withMethod) withMethod inheritedMethod) ∧
      (Runs.run (step twoClasses) withMethod notOverridden).isSome = true ∧
        ¬ Runs.Always (step twoClasses) (Law twoClasses withMethod) withMethod notOverridden := by
  refine ⟨⟨by decide, ?_⟩, ⟨by decide, ?_⟩, by decide, ?_⟩
  · exact not_always_of_own (by decide) (by decide)
  · exact not_always_of_own (by decide) (by decide)
  · exact not_always_of_own (by decide) (by decide)

end Calls

end InjectionManager
