import GnomeShellMobile.ExtensionManager.Manager

/-!
# ExtensionManager — what every operation keeps

An extension that is not active can be changed in many places, but active ones are changed in two
only: `_callExtensionDisable` and the end of `_callExtensionEnable`. A property that is kept by these
two, and does not depend on the others, is kept by every operation.

* **`Kept`**: what is to be shown of a property.
* **`Kept.of_reach`**: it holds in every state that is reached.
-/

namespace ExtensionManager

namespace Manager

variable {s : Manager} {answers : Answers} {uuid : Uuid}

def stateOf (s : Manager) (uuid : Uuid) : Option ExtensionState := (s.lookup uuid).bind Extension.state

@[simp] theorem lookup_start (uuid : Uuid) : start.lookup uuid = none := rfl

@[simp] theorem stateOf_start (uuid : Uuid) : start.stateOf uuid = none := rfl

variable (s)

@[simp] theorem lookup_set_self (uuid : Uuid) (extension : Option Extension) :
    (s.set uuid extension).lookup uuid = extension := Function.update_self _ _ _

theorem lookup_set_of_ne {uuid other : Uuid} (h : other ≠ uuid)
    (extension : Option Extension) : (s.set uuid extension).lookup other = s.lookup other :=
  Function.update_of_ne h _ _

@[simp] theorem stateOf_set_self (uuid : Uuid) (extension : Option Extension) :
    (s.set uuid extension).stateOf uuid = extension.bind Extension.state := by
  rw [stateOf, lookup_set_self]

theorem stateOf_set_of_ne {uuid other : Uuid} (h : other ≠ uuid)
    (extension : Option Extension) : (s.set uuid extension).stateOf other = s.stateOf other := by
  rw [stateOf, lookup_set_of_ne s h, stateOf]

theorem set_set (uuid : Uuid) (extension extension' : Option Extension) :
    (s.set uuid extension).set uuid extension' = s.set uuid extension' := by
  simp [set]

variable {s}

theorem changeExtensionState_eq {extension : Extension} (h : s.lookup uuid = some extension)
    (state : ExtensionState) :
    s.changeExtensionState uuid state = s.set uuid (some { extension with state := some state }) := by
  rw [changeExtensionState, h]

theorem changeExtensionState_of_none (h : s.lookup uuid = none) (state : ExtensionState) :
    s.changeExtensionState uuid state = s := by
  rw [changeExtensionState, h]

theorem stateOf_eq_some {state : ExtensionState} (h : s.stateOf uuid = some state) :
    ∃ extension, s.lookup uuid = some extension ∧ extension.state = some state := by
  rw [stateOf] at h
  exact Option.bind_eq_some_iff.mp h

def Idle (extension : Option Extension) : Prop :=
  ∀ e ∈ extension, e.state ≠ some .active ∧ (e.state = some .inactive → e.stateObj = true)

theorem Idle.stateOf_ne {extension : Option Extension} (h : Idle extension) :
    extension.bind Extension.state ≠ some .active := by
  cases extension with
  | none => exact nofun
  | some e => exact (h e rfl).1

theorem idle_none : Idle none := nofun

theorem idle_of_state {e : Extension} {state : ExtensionState} (h : e.state = some state)
    (hactive : state ≠ .active) (hinactive : state ≠ .inactive) : Idle (some e) := by
  rintro e' he'
  obtain rfl := Option.some.inj he'
  rw [h]
  exact ⟨fun heq => hactive (Option.some.inj heq), fun heq => absurd (Option.some.inj heq) hinactive⟩

/-! ## Where hooks are called -/

structure Logged (s s' : Manager) : Prop where
  order_eq : s'.extensionOrder = s.extensionOrder
  lookup_or : ∀ u, s'.lookup u = s.lookup u ∨
    ∃ e, s.lookup u = some e ∧ s'.lookup u = some { e with state := some .error }

theorem Logged.refl (s : Manager) : Logged s s := ⟨rfl, fun _ => .inl rfl⟩

theorem Logged.trans {s s' s'' : Manager} (h : Logged s s') (h' : Logged s' s'') : Logged s s'' := by
  refine ⟨h'.order_eq.trans h.order_eq, fun u => ?_⟩
  rcases h'.lookup_or u with hsame' | ⟨e', hlookup', herror'⟩
  · rw [hsame']
    exact h.lookup_or u
  · right
    rcases h.lookup_or u with hsame | ⟨e, hlookup, herror⟩
    · exact ⟨e', hsame ▸ hlookup', herror'⟩
    · obtain rfl := Option.some.inj (herror.symm.trans hlookup')
      exact ⟨e, hlookup, herror'⟩

variable (s)

theorem logged_logExtensionError (uuid : Uuid) : Logged s (s.logExtensionError uuid) := by
  rw [logExtensionError]
  cases hlookup : s.lookup uuid with
  | none =>
    rw [changeExtensionState_of_none hlookup]
    exact .refl s
  | some e =>
    rw [changeExtensionState_eq hlookup]
    refine ⟨rfl, fun u => ?_⟩
    rcases eq_or_ne u uuid with rfl | hne
    · exact .inr ⟨e, hlookup, lookup_set_self s u _⟩
    · exact .inl (lookup_set_of_ne s hne _)

theorem logged_tryHook (answers : Answers) (uuid : Uuid) (hook : Hook) :
    Logged s (s.tryHook answers uuid hook).1 := by
  rw [tryHook]
  split
  · exact logged_logExtensionError s uuid
  · split
    · have hcalled : Logged s { s with calls := s.calls ++ [(uuid, hook)] } := ⟨rfl, fun _ => .inl rfl⟩
      show Logged s (if answers.throws uuid hook then _ else _ : Manager × Bool).1
      split
      · exact hcalled.trans (logged_logExtensionError _ uuid)
      · exact hcalled
    · exact logged_logExtensionError s uuid

theorem logged_tryHooks (answers : Answers) (uuids : List Uuid) (hook : Hook) :
    Logged s (s.tryHooks answers uuids hook) := by
  rw [tryHooks]
  induction uuids generalizing s with
  | nil => exact .refl s
  | cons u us ih => exact (logged_tryHook s answers u hook).trans (ih _)

variable {s}

/-! ## A disable -/

variable (s)

def hooked (answers : Answers) (uuid : Uuid) : Manager :=
  ((s.tryHooks answers (laterThan s.extensionOrder uuid).reverse .disable).tryHook answers uuid
    .disable).1.tryHooks answers (laterThan s.extensionOrder uuid) .enable

theorem logged_hooked (answers : Answers) (uuid : Uuid) :
    Logged s (s.hooked answers uuid) :=
  ((logged_tryHooks _ _ _ _).trans (logged_tryHook _ _ _ _)).trans (logged_tryHooks _ _ _ _)

def unhooked (uuid : Uuid) : Manager :=
  let s := { s with extensionOrder := spliced s.extensionOrder uuid }
  if s.stateOf uuid ≠ some .error then s.changeExtensionState uuid .inactive else s

variable {s}

theorem callExtensionDisable_of_ne (h : s.stateOf uuid ≠ some .active) :
    s.callExtensionDisable answers uuid = s := by
  rw [stateOf] at h
  rw [callExtensionDisable]
  cases hlookup : s.lookup uuid with
  | none => rfl
  | some e =>
    rw [hlookup, Option.bind_some] at h
    exact if_pos h

theorem callExtensionDisable_of_active {e : Extension} (hlookup : s.lookup uuid = some e)
    (hactive : e.state = some .active) : s.callExtensionDisable answers uuid =
      ((s.set uuid (some { e with state := some .deactivating })).hooked answers uuid).unhooked uuid := by
  rw [callExtensionDisable, hlookup, ← changeExtensionState_eq hlookup]
  show (if e.state ≠ some .active then s else _) = _
  rw [if_neg (not_not.mpr hactive)]
  rfl

structure Disabled (s s' : Manager) (uuid : Uuid) : Prop where
  order_eq : s'.extensionOrder = spliced s.extensionOrder uuid
  lookup_or : ∀ u, u ≠ uuid → s'.lookup u = s.lookup u ∨
    ∃ e, s.lookup u = some e ∧ s'.lookup u = some { e with state := some .error }
  lookup_self : ∃ e state, s.lookup uuid = some e ∧
    s'.lookup uuid = some { e with state := some state } ∧ (state = .inactive ∨ state = .error)

theorem disabled_callExtensionDisable (hactive : s.stateOf uuid = some .active) :
    Disabled s (s.callExtensionDisable answers uuid) uuid := by
  obtain ⟨e, hlookup, hstate⟩ := stateOf_eq_some hactive
  rw [callExtensionDisable_of_active hlookup hstate]
  have hlogged := logged_hooked (s.set uuid (some { e with state := some .deactivating })) answers uuid
  have hself := hlogged.lookup_or uuid
  rw [lookup_set_self] at hself
  have hother : ∀ u, u ≠ uuid → _ := fun u hne => hlogged.lookup_or u
  obtain ⟨t, ht⟩ : ∃ t, t = (s.set uuid (some { e with state := some .deactivating })).hooked answers uuid :=
    ⟨_, rfl⟩
  rw [← ht] at hlogged hself hother ⊢
  rw [unhooked]
  show Disabled s (if t.stateOf uuid ≠ some .error then _ else _) uuid
  have hnone : t.stateOf uuid ≠ some .error → ∃ e', t.lookup uuid = some e' ∧
      { e' with state := some .inactive } = { e with state := some .inactive } := by
    intro hne
    rcases hself with hsame | ⟨e', he', herror⟩
    · exact ⟨_, hsame, rfl⟩
    · rw [stateOf, herror] at hne
      exact absurd rfl hne
  have hlookup_or : ∀ u, u ≠ uuid → t.lookup u = s.lookup u ∨
      ∃ e, s.lookup u = some e ∧ t.lookup u = some { e with state := some .error } := by
    intro u hne
    have h := hother u hne
    rwa [lookup_set_of_ne s hne] at h
  split
  · next hne =>
    obtain ⟨e', he', hrecord⟩ := hnone hne
    have hlookup' : ({ t with extensionOrder := spliced t.extensionOrder uuid } : Manager).lookup uuid =
        some e' := he'
    rw [changeExtensionState_eq hlookup']
    refine ⟨?_, fun u hu => ?_, e, .inactive, hlookup, ?_, .inl rfl⟩
    · show spliced t.extensionOrder uuid = _
      rw [hlogged.order_eq]
      rfl
    · rw [lookup_set_of_ne _ hu]
      exact hlookup_or u hu
    · rw [lookup_set_self, hrecord]
  · next herror =>
    rw [not_not] at herror
    refine ⟨?_, hlookup_or, e, .error, hlookup, ?_, .inr rfl⟩
    · show spliced t.extensionOrder uuid = _
      rw [hlogged.order_eq]
      rfl
    · rcases hself with hsame | ⟨e', he', herror'⟩
      · rw [stateOf, hsame] at herror
        exact absurd (Option.some.inj herror) (by decide)
      · obtain rfl := Option.some.inj he'
        exact herror'

theorem stateOf_callExtensionDisable_ne (s : Manager) (answers : Answers) (uuid : Uuid) :
    (s.callExtensionDisable answers uuid).stateOf uuid ≠ some .active := by
  by_cases hactive : s.stateOf uuid = some .active
  · have hdisabled : Disabled s (s.callExtensionDisable answers uuid) uuid :=
      disabled_callExtensionDisable hactive
    obtain ⟨e, state, -, hlookup, hstate⟩ := hdisabled.lookup_self
    rw [stateOf, hlookup]
    rcases hstate with rfl | rfl <;> exact nofun
  · rw [callExtensionDisable_of_ne hactive]
    exact hactive

end Manager

open Manager

structure Kept (ok : Answers → Prop) (I : Manager → Prop) : Prop where
  start : I start
  frame : ∀ {s : Manager} (enabledExtensions : List Uuid) (currentMode parentMode : String), I s →
    I { s with enabledExtensions := enabledExtensions, currentMode := currentMode,
               parentMode := parentMode }
  idle : ∀ {s : Manager} {uuid : Uuid} {extension : Option Extension}, I s →
    s.stateOf uuid ≠ some .active → Idle extension → I (s.set uuid extension)
  disable : ∀ {s : Manager} {answers : Answers} {uuid : Uuid}, ok answers → I s →
    s.stateOf uuid = some .active → I (s.callExtensionDisable answers uuid)
  enable : ∀ {s : Manager} {answers : Answers} {uuid : Uuid}, ok answers → I s →
    s.stateOf uuid = some .inactive → I (s.enableInactive answers uuid)

namespace Kept

variable {ok : Answers → Prop} {I : Manager → Prop} {s : Manager} {answers : Answers} {uuid : Uuid}

section

variable (hkept : Kept ok I)
include hkept

theorem callExtensionDisable (hok : ok answers) (h : I s) (uuid : Uuid) :
    I (s.callExtensionDisable answers uuid) := by
  by_cases hactive : s.stateOf uuid = some .active
  · exact hkept.disable hok h hactive
  · rwa [callExtensionDisable_of_ne hactive]

theorem changeExtensionState (h : I s) (hnot : s.stateOf uuid ≠ some .active)
    {state : ExtensionState} (hactive : state ≠ .active) (hinactive : state ≠ .inactive) :
    I (s.changeExtensionState uuid state) := by
  cases hlookup : s.lookup uuid with
  | none => rwa [changeExtensionState_of_none hlookup]
  | some e =>
    rw [changeExtensionState_eq hlookup]
    exact hkept.idle h hnot (idle_of_state rfl hactive hinactive)

theorem callExtensionInit (h : I s) (hnot : s.stateOf uuid ≠ some .active) :
    I (s.callExtensionInit answers uuid).1 ∧
      (s.callExtensionInit answers uuid).1.stateOf uuid ≠ some .active := by
  rw [Manager.callExtensionInit]
  split
  · cases hlookup : s.lookup uuid with
    | none => exact ⟨h, hnot⟩
    | some e =>
      show I (if _ then _ else _ : Manager × Bool).1 ∧ (if _ then _ else _ : Manager × Bool).1.stateOf uuid ≠ _
      split
      · refine ⟨hkept.idle h hnot ?_, ?_⟩
        · rintro e' he'
          obtain rfl := Option.some.inj he'
          exact ⟨nofun, fun _ => rfl⟩
        · rw [stateOf_set_self]
          exact nofun
      · refine ⟨hkept.changeExtensionState h hnot nofun nofun, ?_⟩
        show (s.changeExtensionState uuid .error).stateOf uuid ≠ _
        rw [changeExtensionState_eq hlookup, stateOf_set_self]
        exact nofun
  · exact ⟨h, hnot⟩

theorem callExtensionEnable (hok : ok answers) (h : I s) (uuid : Uuid) :
    I (s.callExtensionEnable answers uuid) := by
  rw [Manager.callExtensionEnable]
  split
  · cases hlookup : s.lookup uuid with
    | none => exact h
    | some e =>
      have hinit : I (if e.state = some .initialized then (s.callExtensionInit answers uuid).1 else s) := by
        split
        · next hstate =>
          have hnot : s.stateOf uuid ≠ some .active := by
            rw [stateOf, hlookup, Option.bind_some, hstate]
            exact nofun
          exact (hkept.callExtensionInit h hnot).1
        · exact h
      obtain ⟨t, ht⟩ : ∃ t, t =
          if e.state = some .initialized then (s.callExtensionInit answers uuid).1 else s := ⟨_, rfl⟩
      rw [← ht] at hinit
      simp only [← ht]
      show I (if t.stateOf uuid ≠ some .inactive then t else t.enableInactive answers uuid)
      by_cases hinactive : t.stateOf uuid = some .inactive
      · rw [if_neg (not_not.mpr hinactive)]
        exact hkept.enable hok hinit hinactive
      · rw [if_pos hinactive]
        exact hinit
  · exact h

theorem loadExtension (hok : ok answers) (h : I s)
    (hnot : s.stateOf uuid ≠ some .active) : I (s.loadExtension answers uuid) := by
  have herror : I (s.changeExtensionState uuid .error) :=
    hkept.changeExtensionState h hnot nofun nofun
  have hnot' : (s.changeExtensionState uuid .error).stateOf uuid ≠ some .active := by
    cases hlookup : s.lookup uuid with
    | none => rwa [changeExtensionState_of_none hlookup]
    | some e =>
      rw [changeExtensionState_eq hlookup, stateOf_set_self]
      exact nofun
  rw [Manager.loadExtension]
  obtain ⟨t, ht⟩ : ∃ t, t = s.changeExtensionState uuid .error := ⟨_, rfl⟩
  rw [← ht] at herror hnot'
  simp only [← ht]
  split
  · exact hkept.changeExtensionState herror hnot' nofun nofun
  split
  · exact hkept.changeExtensionState herror hnot' nofun nofun
  split
  · have hinit : I (t.callExtensionInit answers uuid).1 :=
      (hkept.callExtensionInit herror hnot').1
    split
    · exact hkept.callExtensionEnable hok hinit uuid
    · exact hinit
  · exact hkept.changeExtensionState herror hnot' nofun nofun

theorem unloadExtension (hok : ok answers) (h : I s) (uuid : Uuid) :
    I (s.unloadExtension answers uuid) := by
  have hdisabled := hkept.callExtensionDisable hok h uuid
  have hnot := stateOf_callExtensionDisable_ne s answers uuid
  rw [Manager.unloadExtension]
  cases hlookup : (s.callExtensionDisable answers uuid).lookup uuid with
  | none =>
    simp only [changeExtensionState_of_none hlookup]
    exact hkept.idle hdisabled hnot idle_none
  | some e =>
    simp only [changeExtensionState_eq hlookup, set_set]
    exact hkept.idle hdisabled hnot idle_none

/-- **Every operation keeps it.** -/
theorem step {op : Op} {s' : Manager} (hok : ok answers) (h : I s)
    (hstep : ExtensionManager.step s (op, answers) = some s') : I s' := by
  cases op with
  | disable uuid =>
    obtain rfl := Option.some.inj hstep
    exact hkept.callExtensionDisable hok h uuid
  | enable uuid =>
    obtain rfl := Option.some.inj hstep
    exact hkept.callExtensionEnable hok h uuid
  | install uuid sessionModes =>
    obtain ⟨hnone, hstep⟩ := Option.ite_none_right_eq_some.mp hstep
    obtain rfl := Option.some.inj hstep
    have hnot : s.stateOf uuid ≠ some .active := by
      rw [stateOf, Option.isNone_iff_eq_none.mp hnone]
      exact nofun
    refine hkept.loadExtension hok (hkept.idle h hnot ?_) ?_
    · rintro e he
      obtain rfl := Option.some.inj he
      exact ⟨nofun, nofun⟩
    · rw [createExtensionObject, stateOf_set_self]
      exact nofun
  | unload uuid =>
    obtain rfl := Option.some.inj hstep
    exact hkept.unloadExtension hok h uuid
  | reload uuid sessionModes =>
    obtain rfl := Option.some.inj hstep
    have hunload := hkept.unloadExtension hok h uuid
    have hnone : (s.unloadExtension answers uuid).lookup uuid = none := lookup_set_self _ _ _
    have hnot : (s.unloadExtension answers uuid).stateOf uuid ≠ some .active := by
      rw [stateOf, hnone]
      exact nofun
    cases sessionModes with
    | none => exact hkept.changeExtensionState hunload hnot nofun nofun
    | some modes =>
      refine hkept.loadExtension hok (hkept.idle hunload hnot ?_) ?_
      · rintro e he
        obtain rfl := Option.some.inj he
        exact ⟨nofun, nofun⟩
      · rw [createExtensionObject, stateOf_set_self]
        exact nofun
  | enabledExtensionsChanged newEnabledExtensions =>
    obtain rfl := Option.some.inj hstep
    have hdisable : ∀ (uuids : List Uuid) (s : Manager), I s →
        I (uuids.foldl (fun s uuid => s.callExtensionDisable answers uuid) s) := by
      intro uuids
      induction uuids with
      | nil => exact fun _ h => h
      | cons u us ih => exact fun s h => ih _ (hkept.callExtensionDisable hok h u)
    have henable : ∀ (uuids : List Uuid) (s : Manager), I s →
        I (uuids.foldl (fun s uuid => s.callExtensionEnable answers uuid) s) := by
      intro uuids
      induction uuids with
      | nil => exact fun _ h => h
      | cons u us ih => exact fun s h => ih _ (hkept.callExtensionEnable hok h u)
    exact hkept.frame newEnabledExtensions _ _ (henable _ _ (hdisable _ _ h))
  | sessionModeChanged currentMode parentMode =>
    obtain rfl := Option.some.inj hstep
    exact hkept.frame s.enabledExtensions currentMode parentMode h

/-- **It holds in every state that is reached.** -/
theorem of_reach
    (hreach : Runs.Reach ExtensionManager.step (fun _ e => ok e.2) ExtensionManager.start s) : I s :=
  hreach.invariant hkept.start fun _ _ _ h hok hstep => hkept.step hok h hstep

end

end Kept

end ExtensionManager
