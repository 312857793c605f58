import Mathlib.Data.List.Chain
import Mathlib.Data.List.Nodup
import GnomeShellMobile.ExtensionManager.Kept

/-!
# ExtensionManager — the extensions as a stack

An extension is disabled as if it were taken out of a stack: the later ones are disabled from the top
on, then itself, and then the later ones are enabled again.

* **`rebased_of_ordered`**: the hooks that a disable calls, in any state in which the active
  extensions are in the order.
* **`Stacked`**: while no hook fails, the order is that of the active extensions, and the hooks of
  each of them alternate.
* **`extensionOrder_stack`**: both, for the states that are reached.
-/

namespace ExtensionManager

def Answers.NoHookFails (answers : Answers) : Prop := ∀ uuid hook, answers.throws uuid hook = false

/-- The calls begin with `enable`, and no two of the same hook follow each other. -/
structure Alternates (hooks : List Hook) : Prop where
  ne_next : hooks.IsChain (· ≠ ·)
  head_ne : hooks.head? ≠ some .disable

def hooksOf (uuid : Uuid) (calls : List (Uuid × Hook)) : List Hook :=
  (calls.filter fun call => call.1 = uuid).map Prod.snd

theorem hooksOf_append (uuid : Uuid) (calls calls' : List (Uuid × Hook)) :
    hooksOf uuid (calls ++ calls') = hooksOf uuid calls ++ hooksOf uuid calls' := by
  simp [hooksOf]

theorem hooksOf_map_of_notMem {uuid : Uuid} {uuids : List Uuid} (h : uuid ∉ uuids) (hook : Hook) :
    hooksOf uuid (uuids.map (·, hook)) = [] := by
  rw [hooksOf, List.map_eq_nil_iff, List.filter_eq_nil_iff]
  intro call hcall heq
  obtain ⟨u, hu, rfl⟩ := List.mem_map.mp hcall
  exact h (of_decide_eq_true heq ▸ hu)

theorem hooksOf_map_of_mem {uuid : Uuid} {uuids : List Uuid} (hnodup : uuids.Nodup) (h : uuid ∈ uuids)
    (hook : Hook) : hooksOf uuid (uuids.map (·, hook)) = [hook] := by
  obtain ⟨before, after, rfl, hbefore⟩ := List.eq_append_cons_of_mem h
  have hafter : uuid ∉ after := by
    have hcons := (List.nodup_append.mp hnodup).2.1
    exact (List.nodup_cons.mp hcons).1
  rw [List.map_append, hooksOf_append, hooksOf_map_of_notMem hbefore, List.nil_append, List.map_cons,
    ← List.singleton_append, hooksOf_append, hooksOf_map_of_notMem hafter, List.append_nil]
  simp [hooksOf]

theorem Alternates.concat_disable {hooks : List Hook} (h : Alternates hooks)
    (hlast : hooks.getLast? = some .enable) : Alternates (hooks ++ [.disable]) where
  ne_next := by
    rw [List.isChain_append]
    refine ⟨h.ne_next, List.isChain_singleton _, fun x hx y hy => ?_⟩
    rw [hlast] at hx
    obtain rfl := Option.some.inj hx
    obtain rfl := Option.some.inj hy
    exact nofun
  head_ne := by
    rw [List.head?_append_of_ne_nil _ fun hnil => absurd (hnil ▸ hlast) nofun]
    exact h.head_ne

theorem Alternates.concat_enable {hooks : List Hook} (h : Alternates hooks)
    (hlast : hooks.getLast? ≠ some .enable) : Alternates (hooks ++ [.enable]) where
  ne_next := by
    rw [List.isChain_append]
    refine ⟨h.ne_next, List.isChain_singleton _, fun x hx y hy => ?_⟩
    obtain rfl := Option.some.inj hy
    rintro rfl
    exact hlast hx
  head_ne := by
    cases hooks with
    | nil => exact nofun
    | cons hook hooks => exact h.head_ne

namespace Manager

variable {s : Manager} {answers : Answers} {uuid : Uuid}

def callsOf (s : Manager) (uuid : Uuid) : List Hook := hooksOf uuid s.calls

@[simp] theorem callsOf_start (uuid : Uuid) : start.callsOf uuid = [] := rfl

def HasObject (s : Manager) (uuid : Uuid) : Prop :=
  ∃ extension, s.lookup uuid = some extension ∧ extension.stateObj = true

def Rebased (uuid : Uuid) (s s' : Manager) : Prop :=
  ∃ before later, s.extensionOrder = before ++ uuid :: later ∧ uuid ∉ before ∧
    s'.extensionOrder = before ++ later ∧
    s'.calls = s.calls ++ (later.reverse.map (·, .disable) ++ (uuid, .disable) ::
      later.map (·, .enable))

structure Ordered (s : Manager) : Prop where
  mem_order : ∀ u, s.stateOf u = some .active → u ∈ s.extensionOrder
  stateObj : ∀ u e, s.lookup u = some e → e.state = some .active ∨ e.state = some .inactive →
    e.stateObj = true

structure Stacked (s : Manager) : Prop extends Ordered s where
  nodup : s.extensionOrder.Nodup
  active_of_mem : ∀ u ∈ s.extensionOrder, s.stateOf u = some .active
  alternates : ∀ u, Alternates (s.callsOf u)
  last_iff : ∀ u, (s.callsOf u).getLast? = some .enable ↔ u ∈ s.extensionOrder

/-! ## Hooks that do not fail -/

def withCalls (s : Manager) (calls : List (Uuid × Hook)) : Manager :=
  { s with calls := s.calls ++ calls }

theorem withCalls_withCalls (s : Manager) (calls calls' : List (Uuid × Hook)) :
    (s.withCalls calls).withCalls calls' = s.withCalls (calls ++ calls') := by
  simp [withCalls]

theorem tryHook_of_hasObject (h : s.HasObject uuid) (hook : Hook) : s.tryHook answers uuid hook =
      if answers.throws uuid hook then ((s.withCalls [(uuid, hook)]).logExtensionError uuid, false)
      else (s.withCalls [(uuid, hook)], true) := by
  obtain ⟨e, hlookup, hobj⟩ := h
  rw [tryHook, hlookup]
  show (if e.stateObj then _ else _ : Manager × Bool) = _
  rw [if_pos hobj]
  rfl

theorem tryHook_eq (hno : answers.NoHookFails) (h : s.HasObject uuid) (hook : Hook) :
    s.tryHook answers uuid hook = (s.withCalls [(uuid, hook)], true) := by
  rw [tryHook_of_hasObject h, hno uuid hook]
  rfl

theorem tryHooks_eq (hno : answers.NoHookFails) {uuids : List Uuid}
    (h : ∀ u ∈ uuids, s.HasObject u) (hook : Hook) :
    s.tryHooks answers uuids hook = s.withCalls (uuids.map (·, hook)) := by
  rw [tryHooks]
  induction uuids generalizing s with
  | nil => simp [withCalls]
  | cons u us ih =>
    have hrest : ∀ v ∈ us, (s.withCalls [(u, hook)]).HasObject v := fun v hv =>
      h v (List.mem_cons_of_mem _ hv)
    rw [List.foldl_cons, tryHook_eq hno (h u List.mem_cons_self), ih hrest, withCalls_withCalls,
      List.map_cons, List.singleton_append]

theorem exists_split {order : List Uuid} (h : uuid ∈ order) :
    ∃ before later, order = before ++ uuid :: later ∧ uuid ∉ before ∧
      laterThan order uuid = later ∧ spliced order uuid = before ++ later := by
  obtain ⟨before, later, rfl, hbefore⟩ := List.eq_append_cons_of_mem h
  have hidx : (before ++ uuid :: later).idxOf uuid = before.length := by
    rw [List.idxOf_append_of_notMem hbefore, List.idxOf_cons_self, Nat.add_zero]
  refine ⟨before, later, rfl, hbefore, ?_, ?_⟩
  · rw [laterThan, if_pos h, hidx, List.drop_length_add_append, List.drop_succ_cons, List.drop_zero]
  · rw [spliced, if_pos h, hidx, List.eraseIdx_append_of_length_le (Nat.le_refl _), Nat.sub_self,
      List.eraseIdx_cons_zero]

theorem hooked_eq (hno : answers.NoHookFails) (hself : s.HasObject uuid)
    (hlater : ∀ u ∈ laterThan s.extensionOrder uuid, s.HasObject u) :
    s.hooked answers uuid = s.withCalls
      ((laterThan s.extensionOrder uuid).reverse.map (·, .disable) ++ (uuid, .disable) ::
        (laterThan s.extensionOrder uuid).map (·, .enable)) := by
  have hreverse : ∀ u ∈ (laterThan s.extensionOrder uuid).reverse, s.HasObject u := fun u hu =>
    hlater u (List.mem_reverse.mp hu)
  have hself' : ∀ calls, (s.withCalls calls).HasObject uuid := fun _ => hself
  have hlater' : ∀ calls, ∀ u ∈ laterThan s.extensionOrder uuid, (s.withCalls calls).HasObject u :=
    fun _ => hlater
  rw [hooked, tryHooks_eq hno hreverse, tryHook_eq hno (hself' _), withCalls_withCalls,
    tryHooks_eq hno (hlater' _), withCalls_withCalls, List.append_assoc, List.singleton_append]

theorem callExtensionDisable_eq (hno : answers.NoHookFails) {e : Extension}
    (hlookup : s.lookup uuid = some e) (hactive : e.state = some .active) (hobj : e.stateObj = true)
    (hlater : ∀ u ∈ laterThan s.extensionOrder uuid, s.HasObject u) :
    s.callExtensionDisable answers uuid =
      ({ s.withCalls ((laterThan s.extensionOrder uuid).reverse.map (·, .disable) ++ (uuid, .disable) ::
          (laterThan s.extensionOrder uuid).map (·, .enable)) with
        extensionOrder := spliced s.extensionOrder uuid } : Manager).set uuid
          (some { e with state := some .inactive }) := by
  obtain ⟨t, ht⟩ : ∃ t, t = s.set uuid (some { e with state := some .deactivating }) := ⟨_, rfl⟩
  have hself : t.HasObject uuid :=
    ⟨{ e with state := some .deactivating }, ht ▸ lookup_set_self s uuid _, hobj⟩
  have hother : ∀ u ∈ laterThan t.extensionOrder uuid, t.HasObject u := by
    intro u hu
    rcases eq_or_ne u uuid with rfl | hne
    · exact hself
    · have horder : t.extensionOrder = s.extensionOrder := by rw [ht, set]
      rw [horder] at hu
      obtain ⟨e', he', hobj'⟩ := hlater u hu
      exact ⟨e', by rw [ht, lookup_set_of_ne s hne, he'], hobj'⟩
  have hrecord : t.lookup uuid = some { e with state := some .deactivating } := by
    rw [ht, lookup_set_self]
  rw [callExtensionDisable_of_active hlookup hactive, ← ht, hooked_eq hno hself hother, unhooked]
  obtain ⟨calls, hcalls⟩ : ∃ calls, calls =
      (laterThan t.extensionOrder uuid).reverse.map (·, Hook.disable) ++ (uuid, .disable) ::
        (laterThan t.extensionOrder uuid).map (·, .enable) := ⟨_, rfl⟩
  rw [← hcalls]
  have hrecord' : ({ t.withCalls calls with
      extensionOrder := spliced (t.withCalls calls).extensionOrder uuid } : Manager).lookup uuid =
        some { e with state := some .deactivating } := hrecord
  have hne : ({ t.withCalls calls with
      extensionOrder := spliced (t.withCalls calls).extensionOrder uuid } : Manager).stateOf uuid ≠
        some .error := by
    rw [stateOf, hrecord']
    show some ExtensionState.deactivating ≠ some .error
    decide
  simp only [if_pos hne, changeExtensionState_eq hrecord']
  rw [hcalls, ht]
  simp [set, withCalls]

theorem callExtensionDisable_split (h : s.Ordered) (hno : answers.NoHookFails)
    (hactive : s.stateOf uuid = some .active) (hobj : ∀ u ∈ s.extensionOrder, s.HasObject u) :
    ∃ (e : Extension) (before later : List Uuid),
      s.extensionOrder = before ++ uuid :: later ∧ uuid ∉ before ∧
      s.callExtensionDisable answers uuid =
        ({ s.withCalls (later.reverse.map (·, .disable) ++ (uuid, .disable) ::
            later.map (·, .enable)) with extensionOrder := before ++ later } : Manager).set uuid
          (some { e with state := some .inactive }) := by
  obtain ⟨e, hlookup, hstate⟩ := stateOf_eq_some hactive
  have hself : e.stateObj = true := h.stateObj uuid e hlookup (.inl hstate)
  obtain ⟨before, later, horder, hbefore, hlater, hspliced⟩ := exists_split (h.mem_order uuid hactive)
  have hlaterObj : ∀ u ∈ laterThan s.extensionOrder uuid, s.HasObject u := by
    intro u hu
    rw [hlater] at hu
    exact hobj u (horder ▸ List.mem_append_right _ (List.mem_cons_of_mem _ hu))
  have heq := callExtensionDisable_eq hno hlookup hstate hself hlaterObj
  rw [hlater, hspliced] at heq
  exact ⟨e, before, later, horder, hbefore, heq⟩

/-- **A disable in which no hook fails**: it takes the first entry out of the order. -/
theorem rebased_of_ordered (h : s.Ordered) (hno : answers.NoHookFails)
    (hactive : s.stateOf uuid = some .active) (hobj : ∀ u ∈ s.extensionOrder, s.HasObject u) :
    Rebased uuid s (s.callExtensionDisable answers uuid) := by
  obtain ⟨e, before, later, horder, hbefore, heq⟩ := callExtensionDisable_split h hno hactive hobj
  rw [heq]
  exact ⟨before, later, horder, hbefore, rfl, rfl⟩

/-! ## In every state that is reached -/

theorem enableInactive_cases (answers : Answers) {e : Extension} (hlookup : s.lookup uuid = some e)
    (hobj : e.stateObj = true) :
    s.enableInactive answers uuid = s.set uuid (some { e with state := some .error }) ∨
      answers.throws uuid .enable = true ∧ s.enableInactive answers uuid =
        (s.withCalls [(uuid, .enable)]).set uuid (some { e with state := some .error }) ∨
      answers.throws uuid .enable = false ∧ s.enableInactive answers uuid =
        ({ s.withCalls [(uuid, .enable)] with extensionOrder := s.extensionOrder ++ [uuid] } :
          Manager).set uuid (some { e with state := some .active }) := by
  rw [enableInactive, changeExtensionState_eq hlookup]
  have hlookup' : (s.set uuid (some { e with state := some .activating })).lookup uuid =
      some { e with state := some .activating } := lookup_set_self _ _ _
  have hcalled : ((s.set uuid (some { e with state := some .activating })).withCalls
      [(uuid, .enable)]).lookup uuid = some { e with state := some .activating } := hlookup'
  split
  · right
    rw [tryHook_of_hasObject ⟨_, hlookup', hobj⟩]
    cases hthrows : answers.throws uuid .enable with
    | true =>
      left
      refine ⟨rfl, ?_⟩
      show logExtensionError _ uuid = _
      rw [logExtensionError, changeExtensionState_eq hcalled]
      simp [set, withCalls]
    | false =>
      right
      refine ⟨rfl, ?_⟩
      simp only [Bool.false_eq_true, if_false, if_true, changeExtensionState_eq hcalled]
      simp [set, withCalls]
  · left
    rw [logExtensionError, changeExtensionState_eq hlookup', set_set]

theorem mem_order_set {extension : Option Extension} (h : s.Ordered) (hidle : Idle extension) :
    (s.set uuid extension).Ordered where
  mem_order u hu := by
    rcases eq_or_ne u uuid with rfl | hne
    · rw [stateOf_set_self] at hu
      exact absurd hu hidle.stateOf_ne
    · exact h.mem_order u (stateOf_set_of_ne s hne extension ▸ hu)
  stateObj u e hlookup hstate := by
    rcases eq_or_ne u uuid with rfl | hne
    · rw [lookup_set_self] at hlookup
      obtain ⟨hactive, hinactive⟩ := hidle e hlookup
      exact hinactive (hstate.resolve_left hactive)
    · exact h.stateObj u e (lookup_set_of_ne s hne extension ▸ hlookup) hstate

theorem kept_ordered : Kept (fun _ => True) Ordered where
  start := ⟨fun u hu => by simp at hu, fun u e hu => by simp at hu⟩
  frame _ _ _ h := ⟨h.mem_order, h.stateObj⟩
  idle h _ hidle := mem_order_set h hidle
  disable {s answers uuid} _ h hactive := by
    have hdisabled : Disabled s (s.callExtensionDisable answers uuid) uuid :=
      disabled_callExtensionDisable hactive
    obtain ⟨e, state, hlookup, hlookup', hstate⟩ := hdisabled.lookup_self
    obtain ⟨before, later, horder, -, -, hspliced⟩ := exists_split (h.mem_order uuid hactive)
    refine ⟨fun u hu => ?_, fun u e' hu hstate' => ?_⟩
    · -- the extension itself is not active any more, and no other has become active
      have hne : u ≠ uuid := by
        rintro rfl
        exact stateOf_callExtensionDisable_ne s answers u hu
      have hbefore : s.stateOf u = some .active := by
        rcases hdisabled.lookup_or u hne with hsame | ⟨e', -, herror⟩
        · rwa [stateOf, ← hsame]
        · rw [stateOf, herror] at hu
          exact absurd (Option.some.inj hu) (by decide)
      have hmem := h.mem_order u hbefore
      rw [horder] at hmem
      rw [hdisabled.order_eq, hspliced]
      rcases List.mem_append.mp hmem with hmem | hmem
      · exact List.mem_append_left _ hmem
      · exact List.mem_append_right _ ((List.mem_cons.mp hmem).resolve_left hne)
    · rcases eq_or_ne u uuid with rfl | hne
      · obtain rfl := Option.some.inj (hlookup'.symm.trans hu)
        obtain ⟨e₀, hlookup₀, hactive₀⟩ := stateOf_eq_some hactive
        obtain rfl := Option.some.inj (hlookup.symm.trans hlookup₀)
        exact h.stateObj u e hlookup (.inl hactive₀)
      · rcases hdisabled.lookup_or u hne with hsame | ⟨e₀, -, herror⟩
        · exact h.stateObj u e' (hsame ▸ hu) hstate'
        · obtain rfl := Option.some.inj (herror.symm.trans hu)
          rcases hstate' with hactive' | hinactive'
          · exact absurd (Option.some.inj hactive') (by decide)
          · exact absurd (Option.some.inj hinactive') (by decide)
  enable {s answers uuid} _ h hinactive := by
    obtain ⟨e, hlookup, hstate⟩ := stateOf_eq_some hinactive
    have hobj := h.stateObj uuid e hlookup (.inr hstate)
    have hidle : Idle (some { e with state := some .error }) := idle_of_state rfl (by decide) (by decide)
    rcases enableInactive_cases answers hlookup hobj with
      heq | ⟨-, heq⟩ | ⟨-, heq⟩ <;> rw [heq]
    · exact mem_order_set h hidle
    · exact mem_order_set (s := s.withCalls [(uuid, .enable)]) ⟨h.mem_order, h.stateObj⟩ hidle
    · refine ⟨fun u hu => ?_, fun u e' hu hstate' => ?_⟩
      · rcases eq_or_ne u uuid with rfl | hne
        · exact List.mem_append_right _ (List.mem_singleton.mpr rfl)
        · rw [stateOf_set_of_ne _ hne] at hu
          exact List.mem_append_left _ (h.mem_order u hu)
      · rcases eq_or_ne u uuid with rfl | hne
        · rw [lookup_set_self] at hu
          obtain rfl := Option.some.inj hu
          exact hobj
        · rw [lookup_set_of_ne _ hne] at hu
          exact h.stateObj u e' hu hstate'

/-! ### While no hook fails -/

theorem Stacked.hasObject (h : s.Stacked) : ∀ u ∈ s.extensionOrder, s.HasObject u := by
  intro u hu
  obtain ⟨e, hlookup, hstate⟩ := stateOf_eq_some (h.active_of_mem u hu)
  exact ⟨e, hlookup, h.stateObj u e hlookup (.inl hstate)⟩

theorem Stacked.set {extension : Option Extension} (h : s.Stacked)
    (hnot : s.stateOf uuid ≠ some .active) (hidle : Idle extension) : (s.set uuid extension).Stacked where
  __ := h
  toOrdered := mem_order_set h.toOrdered hidle
  active_of_mem u hu := by
    have hactive := h.active_of_mem u hu
    have hne : u ≠ uuid := fun heq => hnot (heq ▸ hactive)
    rwa [stateOf_set_of_ne s hne]

theorem callsOf_withCalls (s : Manager) (calls : List (Uuid × Hook)) (u : Uuid) :
    (s.withCalls calls).callsOf u = s.callsOf u ++ hooksOf u calls := hooksOf_append _ _ _

theorem hooksOf_rebase {before later : List Uuid} (hnodup : (before ++ uuid :: later).Nodup) (u : Uuid) :
    hooksOf u (later.reverse.map (·, .disable) ++ (uuid, .disable) :: later.map (·, .enable)) =
      if u = uuid then [.disable] else if u ∈ later then [.disable, .enable] else [] := by
  obtain ⟨-, hcons, -⟩ := List.nodup_append.mp hnodup
  obtain ⟨hself, hlater⟩ := List.nodup_cons.mp hcons
  have hsingle : hooksOf u [(uuid, Hook.disable)] = if u = uuid then [.disable] else [] := by
    by_cases heq : u = uuid
    · rw [if_pos heq, heq]
      simp [hooksOf]
    · rw [if_neg heq]
      simp [hooksOf, Ne.symm heq]
  rw [← List.singleton_append, hooksOf_append, hooksOf_append, hsingle]
  by_cases heq : u = uuid
  · rw [if_pos heq, if_pos heq, heq, hooksOf_map_of_notMem (fun hmem => hself (List.mem_reverse.mp hmem)),
      hooksOf_map_of_notMem hself]
    rfl
  · rw [if_neg heq, if_neg heq, List.nil_append]
    split
    · next hmem =>
      rw [hooksOf_map_of_mem (List.nodup_reverse.mpr hlater) (List.mem_reverse.mpr hmem),
        hooksOf_map_of_mem hlater hmem]
      rfl
    · next hmem =>
      rw [hooksOf_map_of_notMem fun hmem' => hmem (List.mem_reverse.mp hmem'),
        hooksOf_map_of_notMem hmem]
      rfl

theorem getLast?_concat_iff (hooks : List Hook) (hook : Hook) :
    (hooks ++ [hook]).getLast? = some .enable ↔ hook = .enable := by
  rw [List.getLast?_concat, Option.some_inj]

theorem stacked_disable (h : s.Stacked) (hno : answers.NoHookFails)
    (hactive : s.stateOf uuid = some .active) : (s.callExtensionDisable answers uuid).Stacked := by
  have hordered : (s.callExtensionDisable answers uuid).Ordered :=
    kept_ordered.disable trivial h.toOrdered hactive
  obtain ⟨e, before, later, horder, -, heq⟩ :=
    callExtensionDisable_split h.toOrdered hno hactive h.hasObject
  have hnodup : (before ++ uuid :: later).Nodup := horder ▸ h.nodup
  have horder' : (s.callExtensionDisable answers uuid).extensionOrder = before ++ later := by
    rw [heq]
    rfl
  have hcalls : ∀ u, (s.callExtensionDisable answers uuid).callsOf u = s.callsOf u ++
      if u = uuid then [.disable] else if u ∈ later then [.disable, .enable] else [] := by
    intro u
    rw [heq, ← hooksOf_rebase hnodup u]
    exact callsOf_withCalls _ _ u
  have hmem : ∀ u, u ∈ before ++ later ↔ u ∈ s.extensionOrder ∧ u ≠ uuid := by
    intro u
    have hdisjoint := List.nodup_middle.mp hnodup
    rw [horder, List.mem_append, List.mem_append, List.mem_cons]
    constructor
    · intro hu
      refine ⟨by tauto, ?_⟩
      rintro rfl
      exact (List.nodup_cons.mp hdisjoint).1 (List.mem_append.mpr hu)
    · tauto
  refine ⟨hordered, ?_, fun u hu => ?_, fun u => ?_, fun u => ?_⟩
  · rw [horder']
    exact (List.nodup_cons.mp (List.nodup_middle.mp hnodup)).2
  · rw [horder', hmem] at hu
    rw [heq, stateOf_set_of_ne _ hu.2]
    exact h.active_of_mem u hu.1
  · rw [hcalls]
    have halternates := h.alternates u
    split
    · next hself =>
      exact halternates.concat_disable ((h.last_iff u).mpr (hself ▸ h.mem_order uuid hactive))
    split
    · next hu =>
      have hin : u ∈ s.extensionOrder := horder ▸ List.mem_append_right _ (List.mem_cons_of_mem _ hu)
      have hdisabled := halternates.concat_disable ((h.last_iff u).mpr hin)
      have henabled := hdisabled.concat_enable fun hlast =>
        absurd ((getLast?_concat_iff _ _).mp hlast) (by decide)
      rwa [List.append_assoc] at henabled
    · rwa [List.append_nil]
  · rw [hcalls, horder', hmem]
    split
    · next hself =>
      rw [getLast?_concat_iff]
      exact iff_of_false (by decide) fun hu => hu.2 hself
    split
    · next hne hu =>
      have hin : u ∈ s.extensionOrder := horder ▸ List.mem_append_right _ (List.mem_cons_of_mem _ hu)
      rw [List.append_cons, getLast?_concat_iff]
      exact iff_of_true rfl ⟨hin, hne⟩
    · next hne _ =>
      rw [List.append_nil, h.last_iff, and_iff_left hne]

theorem stacked_enable (h : s.Stacked) (hno : answers.NoHookFails)
    (hinactive : s.stateOf uuid = some .inactive) : (s.enableInactive answers uuid).Stacked := by
  have hordered : (s.enableInactive answers uuid).Ordered :=
    kept_ordered.enable trivial h.toOrdered hinactive
  obtain ⟨e, hlookup, hstate⟩ := stateOf_eq_some hinactive
  have hnot : s.stateOf uuid ≠ some .active := by
    rw [hinactive]
    exact nofun
  have hout : uuid ∉ s.extensionOrder := fun hmem => hnot (h.active_of_mem uuid hmem)
  rcases enableInactive_cases answers hlookup
    (h.stateObj uuid e hlookup (.inr hstate)) with heq | ⟨hthrows, -⟩ | ⟨-, heq⟩
  · rw [heq]
    exact h.set hnot (idle_of_state rfl (by decide) (by decide))
  · exact absurd (hno uuid .enable) (by rw [hthrows]; decide)
  · rw [heq] at hordered ⊢
    have hcalls : ∀ u, (s.withCalls [(uuid, .enable)]).callsOf u =
        s.callsOf u ++ if u = uuid then [.enable] else [] := by
      intro u
      rw [callsOf_withCalls]
      by_cases hu : u = uuid
      · rw [if_pos hu, hu]
        simp [hooksOf]
      · rw [if_neg hu]
        simp [hooksOf, Ne.symm hu]
    refine ⟨hordered, ?_, fun u hu => ?_, fun u => ?_, fun u => ?_⟩
    · exact List.nodup_append.mpr ⟨h.nodup, List.nodup_singleton _, fun a ha b hb hab =>
        hout (List.mem_singleton.mp hb ▸ hab ▸ ha)⟩
    · rcases eq_or_ne u uuid with rfl | hne
      · exact stateOf_set_self _ _ _
      · rw [stateOf_set_of_ne _ hne]
        exact h.active_of_mem u ((List.mem_append.mp hu).resolve_right fun hself =>
          hne (List.mem_singleton.mp hself))
    · show Alternates ((s.withCalls [(uuid, .enable)]).callsOf u)
      rw [hcalls]
      split
      · next hu =>
        exact (h.alternates u).concat_enable fun hlast => hout (hu ▸ (h.last_iff u).mp hlast)
      · rw [List.append_nil]
        exact h.alternates u
    · show ((s.withCalls [(uuid, .enable)]).callsOf u).getLast? = _ ↔ u ∈ s.extensionOrder ++ [uuid]
      rw [hcalls, List.mem_append, List.mem_singleton]
      split
      · next hu =>
        rw [getLast?_concat_iff]
        exact iff_of_true rfl (.inr hu)
      · next hu => rw [List.append_nil, h.last_iff, or_iff_left hu]

theorem stacked_start : Stacked start where
  toOrdered := kept_ordered.start
  nodup := List.nodup_nil
  active_of_mem := fun _ hu => absurd hu List.not_mem_nil
  alternates u := by
    rw [callsOf_start]
    exact ⟨.nil, by simp⟩
  last_iff u := by
    rw [callsOf_start]
    exact iff_of_false (by simp) List.not_mem_nil

theorem kept_stacked : Kept Answers.NoHookFails Stacked where
  start := stacked_start
  frame _ _ _ h := ⟨⟨h.mem_order, h.stateObj⟩, h.nodup, h.active_of_mem, h.alternates, h.last_iff⟩
  idle h hnot hidle := h.set hnot hidle
  disable hno h hactive := stacked_disable h hno hactive
  enable hno h hinactive := stacked_enable h hno hinactive

end Manager

open Manager

/-- **The extensions are a stack.** In every state that is reached, whatever has failed before, a
disable in which no hook fails disables the later extensions from the last one on, then the extension,
and enables the later ones again; the order loses it. And while no hook fails in any operation, the
order is that of the active extensions, and the hooks of each of them are called in turn. -/
theorem extensionOrder_stack :
    (∀ (s : Manager) (answers : Answers) (uuid : Uuid), Runs.Reachable step start s →
        answers.NoHookFails → (∀ u ∈ s.extensionOrder, s.HasObject u) →
        s.stateOf uuid = some .active → Rebased uuid s (s.callExtensionDisable answers uuid)) ∧
      ∀ s : Manager, Runs.Reach step (fun _ e => e.2.NoHookFails) start s →
        s.Stacked ∧ (∀ u ∈ s.extensionOrder, s.HasObject u) ∧ ∀ uuid, Alternates (s.callsOf uuid) := by
  constructor
  · intro s answers uuid hreach hno hobj hactive
    have hordered := kept_ordered.of_reach (hreach.mono fun _ _ _ => trivial)
    exact rebased_of_ordered hordered hno hactive hobj
  · intro s hreach
    have hstacked := kept_stacked.of_reach hreach
    exact ⟨hstacked, hstacked.hasObject, hstacked.alternates⟩

def allFine : Answers :=
  ⟨fun _ _ => false, fun _ => true, fun _ => true, fun _ => true, fun _ => true, fun _ => false,
    fun _ => true⟩

def installTwo : List (Op × Answers) :=
  [(.sessionModeChanged "user" "", allFine), (.enabledExtensionsChanged ["a", "b"], allFine),
    (.install "a" ["user"], allFine), (.install "b" ["user"], allFine)]

/-- And the first one is disabled. -/
theorem extensionOrder_stack_two :
    ∃ s, Runs.run step start installTwo = some s ∧ s.extensionOrder = ["a", "b"] ∧
      Rebased "a" s (s.callExtensionDisable allFine "a") ∧ ∀ uuid, Alternates (s.callsOf uuid) := by
  obtain ⟨s, hs⟩ : ∃ s, Runs.run step start installTwo = some s := ⟨_, rfl⟩
  have hfine : allFine.NoHookFails := fun _ _ => rfl
  have hallowed : Runs.Allowed step (fun _ e => e.2.NoHookFails) start installTwo :=
    ⟨hfine, fun _ _ => ⟨hfine, fun _ _ => ⟨hfine, fun _ _ => ⟨hfine, fun _ _ => trivial⟩⟩⟩⟩
  have hreach := Runs.Reach.of_run installTwo hallowed hs
  obtain ⟨hstacked, hobj, halternates⟩ := extensionOrder_stack.2 s hreach
  have horder : s.extensionOrder = ["a", "b"] := by
    obtain rfl := Option.some.inj hs
    decide
  have hactive : s.stateOf "a" = some .active :=
    hstacked.active_of_mem "a" (by rw [horder]; decide)
  exact ⟨s, hs, horder, extensionOrder_stack.1 s allFine "a" (hreach.mono fun _ _ _ => trivial) hfine hobj
    hactive, halternates⟩

end ExtensionManager
