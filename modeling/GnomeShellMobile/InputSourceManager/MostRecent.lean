import GnomeShellMobile.InputSourceManager.Sources
import Mathlib.Data.List.Lattice

/-!
# InputSourceManager — the most recently used sources

* **`run_mostRecent_iff`**: all steps of a run are `Kept` exactly when each event is `Present`.
-/

namespace InputSourceManager

variable {s t : State} {hasLayout : String → Bool} {is : InputSource} {e : Event}

/-! ## Taking the sources in their order -/

theorem find?_eraseP {sourcesList : List InputSource} {setting : Setting}
    (h : sourcesList.find? (·.setting = setting) = some is) :
    is.setting = setting ∧ (is :: sourcesList.eraseP (·.setting = setting)).Perm sourcesList ∧
      settings (sourcesList.eraseP (·.setting = setting)) = (settings sourcesList).erase setting := by
  induction sourcesList with
  | nil => cases h
  | cons first rest ih =>
    cases decEq first.setting setting with
    | isTrue heq =>
      rw [List.find?_cons_of_pos (by simpa using heq)] at h
      obtain rfl := Option.some.inj h
      rw [List.eraseP_cons_of_pos (by simpa using heq)]
      refine ⟨heq, .refl _, ?_⟩
      show settings rest = (first.setting :: settings rest).erase setting
      rw [heq, List.erase_cons_head]
    | isFalse hne =>
      rw [List.find?_cons_of_neg (by simpa using hne)] at h
      obtain ⟨hsetting, hperm, hsettings⟩ := ih h
      rw [List.eraseP_cons_of_neg (by simpa using hne)]
      refine ⟨hsetting, (List.Perm.swap _ _ _).trans (hperm.cons first), ?_⟩
      show first.setting :: settings (rest.eraseP _) = (first.setting :: settings rest).erase setting
      rw [hsettings, List.erase_cons_tail (by simpa using hne)]

theorem find?_setting_eq_none {sourcesList : List InputSource} {setting : Setting} :
    sourcesList.find? (·.setting = setting) = none ↔ setting ∉ settings sourcesList := by
  simp [settings]

/-- No source is lost, and those taken are the common ones in the old order. Induction on the old
list. -/
theorem takeSources_spec (mruSources sourcesList : List InputSource) :
    ((takeSources mruSources sourcesList).1 ++ (takeSources mruSources sourcesList).2).Perm
        sourcesList ∧
      settings (takeSources mruSources sourcesList).1 =
        (settings mruSources).bagInter (settings sourcesList) := by
  induction mruSources generalizing sourcesList with
  | nil =>
    rw [takeSources]
    exact ⟨.refl _, (List.nil_bagInter _).symm⟩
  | cons mru mruSources ih =>
    rw [takeSources]
    cases hfind : sourcesList.find? (·.setting = mru.setting) with
    | none =>
      obtain ⟨hperm, hsettings⟩ := ih sourcesList
      refine ⟨hperm, hsettings.trans ?_⟩
      have hnot := find?_setting_eq_none.mp hfind
      exact (List.cons_bagInter_of_not_mem (settings mruSources) hnot).symm
    | some is =>
      obtain ⟨hsetting, hrest, herase⟩ := find?_eraseP hfind
      obtain ⟨hperm, hsettings⟩ := ih (sourcesList.eraseP (·.setting = mru.setting))
      refine ⟨(hperm.cons is).trans hrest, ?_⟩
      have hmem : mru.setting ∈ settings sourcesList := by
        rw [← hsetting]
        exact List.mem_map_of_mem (List.mem_of_find?_eq_some hfind)
      show is.setting :: settings (takeSources mruSources _).1 = _
      rw [hsettings, herase, hsetting]
      exact (List.cons_bagInter_of_mem (settings mruSources) hmem).symm

theorem sortSources_perm (mruSources sourcesList : List InputSource) :
    (sortSources mruSources sourcesList).Perm sourcesList := by
  rw [sortSources]
  split
  · exact (takeSources_spec mruSources sourcesList).1
  · exact .refl _

theorem settings_sortSources {mruSources sourcesList : List InputSource}
    (h : 1 < mruSources.length) : (settings mruSources).bagInter (settings sourcesList) <+:
      settings (sortSources mruSources sourcesList) := by
  rw [sortSources, if_pos h]
  have hsettings := (takeSources_spec mruSources sourcesList).2
  exact ⟨settings (takeSources mruSources sourcesList).2,
    by rw [← hsettings, settings, settings, settings, List.map_append]⟩

theorem settings_sortSources_sublist (mruSources sourcesList : List InputSource) :
    ((settings mruSources).bagInter (settings sourcesList)).Sublist
      (settings (sortSources mruSources sourcesList)) := by
  cases Nat.lt_or_ge 1 mruSources.length with
  | inl hlong => exact (settings_sortSources hlong).sublist
  | inr hshort =>
    rw [sortSources, if_neg (by omega)]
    match mruSources, hshort with
    | [], _ =>
      show (List.bagInter [] (settings sourcesList)).Sublist _
      rw [List.nil_bagInter]
      exact List.nil_sublist _
    | [is], _ =>
      show ([is.setting].bagInter _).Sublist _
      rw [List.singleton_bagInter]
      split
      · next hmem => exact List.singleton_sublist.mpr hmem
      · exact List.nil_sublist _

/-! ## Moving a source to the front -/

theorem moveToFront_perm (newSource : InputSource) (mruSources : List InputSource) :
    (moveToFront newSource mruSources).Perm mruSources := by
  cases mruSources with
  | nil => exact .refl _
  | cons first rest =>
    rw [moveToFront]
    split
    · next hmem =>
      exact (List.Perm.swap _ _ _).trans ((List.perm_cons_erase hmem).symm.cons first)
    · exact .refl _

theorem head?_moveToFront {newSource : InputSource} {mruSources : List InputSource}
    (h : newSource ∈ mruSources) : (moveToFront newSource mruSources).head? = some newSource := by
  cases mruSources with
  | nil => cases h
  | cons first rest =>
    rw [moveToFront]
    split
    · rfl
    · next hrest =>
      rcases List.mem_cons.mp h with heq | hmem
      · exact congrArg some heq.symm
      · exact absurd hmem hrest

theorem moveToFront_of_not_mem {newSource : InputSource} {mruSources : List InputSource}
    (h : newSource ∉ mruSources) : moveToFront newSource mruSources = mruSources := by
  cases mruSources with
  | nil => rfl
  | cons first rest =>
    have hrest : newSource ∉ rest := fun hmem => h (.tail _ hmem)
    rw [moveToFront, if_neg hrest]

theorem moveToFront_head {first : InputSource} {rest : List InputSource}
    (h : (first :: rest).Nodup) : moveToFront first (first :: rest) = first :: rest := by
  rw [moveToFront, if_neg (List.nodup_cons.mp h).1]

/-! ## The new sources -/

@[simp] theorem settings_makeSources (generation : ℕ) (infos : List Setting) :
    settings (makeSources generation infos) = infos := by
  apply List.ext_getElem
  · simp [settings, makeSources]
  · intro i h₁ h₂
    simp [settings, makeSources, InputSource.setting]

theorem makeSources_nodup (generation : ℕ) (infos : List Setting) :
    (makeSources generation infos).Nodup := by
  rw [makeSources, List.Nodup, List.pairwise_iff_getElem]
  intro i j hi hj hlt heq
  have hindex := congrArg InputSource.index heq
  simp only [List.getElem_mapIdx] at hindex
  omega

theorem infosList_ne_nil (hasLayout : String → Bool) (s : State) : s.infosList hasLayout ≠ [] := by
  rw [State.infosList]
  split
  · simp
  · next hne => exact fun hnil => hne hnil

theorem makeSources_ne_nil {generation : ℕ} {infos : List Setting} (h : infos ≠ []) :
    makeSources generation infos ≠ [] := fun hnil => by
  have hsettings := settings_makeSources generation infos
  rw [hnil] at hsettings
  exact h hsettings.symm

/-! ## What the operations change -/

variable (s)

structure Activated (is : InputSource) (t : State) : Prop where
  inputSources : t.inputSources = s.inputSources
  generation : t.generation = s.generation
  currentSource : t.currentSource = some is
  mruSources : t.mruSources = moveToFront is s.mruSources
  backup : t.mruSourcesBackup = s.mruSourcesBackup
  disableIBus : t.disableIBus = s.disableIBus
  passwordOrder : t.passwordOrder = s.passwordOrder
  windows : ∀ window ws, t.windowSources window = some ws →
    s.windowSources window = some ws ∨ ws = ⟨s.generation, some is⟩

theorem activated_current (is : InputSource) :
    Activated s is (s.currentInputSourceChanged is) := by
  rw [State.currentInputSourceChanged, State.changePerWindowSource]
  split
  · exact ⟨rfl, rfl, rfl, rfl, rfl, rfl, rfl, fun _ _ h => .inl h⟩
  · split
    · exact ⟨rfl, rfl, rfl, rfl, rfl, rfl, rfl, fun _ _ h => .inl h⟩
    · next window _ =>
      refine ⟨rfl, rfl, rfl, rfl, rfl, rfl, rfl, fun window' ws h => ?_⟩
      have hlookup : Function.update s.windowSources window
          (some ⟨s.generation, some is⟩) window' = some ws := h
      rw [Function.update_apply] at hlookup
      split at hlookup
      · exact .inr (Option.some.inj hlookup).symm
      · exact .inl hlookup

theorem activated (is : InputSource) (interactive : Bool) :
    Activated s is (s.activateInputSource is interactive) := by
  have h := activated_current s is
  cases interactive with
  | false => exact h
  | true =>
    show Activated s is (s.currentInputSourceChanged is).updateMruSettings
    rw [State.updateMruSettings]
    split
    · exact h
    · split
      · exact h
      · exact ⟨h.inputSources, h.generation, h.currentSource, h.mruSources, h.backup,
          h.disableIBus, h.passwordOrder, h.windows⟩

/-- The order that `_updateMruSources` starts from. -/
def State.recalled : List InputSource :=
  if s.disableIBus then s.mruSources else s.mruSourcesBackup.getD s.mruSources

theorem updateMruSources_eq : ∃ mruSources,
    (s.recalled ≠ [] → mruSources = s.recalled) ∧ s.updateMruSources = { s with
      mruSources := sortSources mruSources s.inputSources
      mruSourcesBackup := if s.disableIBus then s.mruSourcesBackup else none } := by
  refine ⟨if s.recalled.length = 0 then
      s.settingsMruSources.filterMap fun mru => s.inputSources.find? (·.setting = mru)
    else s.recalled, fun hne => ?_, ?_⟩
  · exact if_neg fun hlength => hne (List.length_eq_zero_iff.mp hlength)
  · cases hdisable : s.disableIBus with
    | true => simp [State.updateMruSources, State.recalled, hdisable]
    | false =>
      cases hbackup : s.mruSourcesBackup with
      | none => simp [State.updateMruSources, State.recalled, hdisable, hbackup]
      | some backup => simp [State.updateMruSources, State.recalled, hdisable, hbackup]

variable {s}

structure Changed (hasLayout : String → Bool) (s t : State) : Prop where
  inputSources : t.inputSources = makeSources (s.generation + 1) (s.infosList hasLayout)
  generation : t.generation = s.generation + 1
  currentSource : t.currentSource = t.mruSources.head?
  mruSources : ∃ mruSources, (s.recalled ≠ [] → mruSources = s.recalled) ∧
    t.mruSources = sortSources mruSources t.inputSources
  backup : t.mruSourcesBackup = if s.disableIBus then s.mruSourcesBackup else none
  disableIBus : t.disableIBus = s.disableIBus
  passwordOrder : t.passwordOrder = s.passwordOrder
  windows : ∀ window ws, t.windowSources window = some ws → s.windowSources window = some ws ∨
    ws.inputSources = t.generation ∧ ∀ is ∈ ws.currentSource, is ∈ t.inputSources

theorem changed (hasLayout : String → Bool) (s : State) :
    Changed hasLayout s (s.inputSourcesChanged hasLayout) := by
  rw [State.inputSourcesChanged]
  obtain ⟨mruSources, hrecalled, hupdated⟩ := updateMruSources_eq { s with
    currentSource := none
    generation := s.generation + 1
    inputSources := makeSources (s.generation + 1) (s.infosList hasLayout)
    created := s.created ++ makeSources (s.generation + 1) (s.infosList hasLayout) }
  generalize hu : State.updateMruSources _ = u at hupdated ⊢
  have hsources : u.inputSources = makeSources (s.generation + 1) (s.infosList hasLayout) := by
    rw [hupdated]
  have hmru : u.mruSources = sortSources mruSources u.inputSources := by rw [hupdated]
  have hperm := sortSources_perm mruSources u.inputSources
  rw [← hmru] at hperm
  cases hcases : u.mruSources with
  | nil =>
    rw [hcases] at hperm
    have hnil := hsources.symm.trans hperm.nil_eq.symm
    exact absurd hnil (makeSources_ne_nil (infosList_ne_nil hasLayout s))
  | cons first rest =>
    -- the activated source is at the head already
    have hnodup : (first :: rest).Nodup := by
      rw [← hcases, hperm.nodup_iff, hsources]
      exact makeSources_nodup _ _
    have hact := activated u first false
    have hsame : (u.activateInputSource first false).mruSources = u.mruSources := by
      rw [hact.mruSources, hcases, moveToFront_head hnodup]
    refine ⟨hact.inputSources.trans hsources, hact.generation.trans ?_, ?_, ⟨mruSources, hrecalled, ?_⟩,
      hact.backup.trans ?_, hact.disableIBus.trans ?_, hact.passwordOrder.trans ?_, ?_⟩
    · rw [hupdated]
    · rw [hact.currentSource, hsame, hcases]
      rfl
    · rw [hsame, hact.inputSources, hmru]
    · rw [hupdated]
    · rw [hupdated]
    · rw [hupdated]
    · intro window ws hws
      rcases hact.windows window ws hws with hold | rfl
      · left
        rw [hupdated] at hold
        exact hold
      · right
        refine ⟨hact.generation.symm, fun is his => ?_⟩
        obtain rfl := Option.some.inj his
        rw [hact.inputSources, ← hperm.mem_iff, hcases]
        exact .head _

/-! ## The invariant -/

structure Linked (s : State) : Prop where
  nodup : s.inputSources.Nodup
  generation : ∀ window ws, s.windowSources window = some ws → ws.inputSources ≤ s.generation
  present : ∀ window ws, s.windowSources window = some ws → ws.inputSources = s.generation →
    ∀ is ∈ ws.currentSource, is ∈ s.inputSources
  entered : s.disableIBus = true → s.mruSourcesBackup.map settings = some s.passwordOrder
  left : s.disableIBus = false → s.mruSourcesBackup = none

theorem Changed.law (h : Changed hasLayout s t) : Law t := by
  obtain ⟨mruSources, -, hsorted⟩ := h.mruSources
  have hperm := sortSources_perm mruSources t.inputSources
  rw [← hsorted] at hperm
  refine ⟨hperm, ?_, h.currentSource⟩
  rw [hperm.nodup_iff, h.inputSources]
  exact makeSources_nodup _ _

theorem Changed.linked (h : Changed hasLayout s t)
    (hgeneration : ∀ window ws, s.windowSources window = some ws → ws.inputSources ≤ s.generation)
    (hentered : s.disableIBus = true → s.mruSourcesBackup.map settings = some s.passwordOrder) :
    Linked t := by
  refine ⟨?_, ?_, ?_, ?_, ?_⟩
  · rw [h.inputSources]
    exact makeSources_nodup _ _
  · intro window ws hws
    rcases h.windows window ws hws with hold | hnew
    · have hle := hgeneration window ws hold
      rw [h.generation]
      omega
    · exact Nat.le_of_eq hnew.1
  · intro window ws hws heq
    rcases h.windows window ws hws with hold | hnew
    · have hle := hgeneration window ws hold
      rw [h.generation] at heq
      omega
    · exact hnew.2
  · intro hdisable
    rw [h.disableIBus] at hdisable
    rw [h.backup, if_pos hdisable, h.passwordOrder]
    exact hentered hdisable
  · intro hdisable
    rw [h.disableIBus] at hdisable
    rw [h.backup, hdisable]
    rfl

theorem Activated.law (h : Activated s is t) (hlaw : Law s)
    (his : is ∈ s.inputSources) : Law t := by
  have hperm := moveToFront_perm is s.mruSources
  have hmem : is ∈ s.mruSources := hlaw.perm.mem_iff.mpr his
  refine ⟨?_, ?_, ?_⟩
  · rw [h.mruSources, h.inputSources]
    exact hperm.trans hlaw.perm
  · rw [h.mruSources, hperm.nodup_iff]
    exact hlaw.nodup
  · rw [h.mruSources, h.currentSource, head?_moveToFront hmem]

theorem Activated.not_law (h : Activated s is t) (hlaw : Law s)
    (his : is ∉ s.inputSources) : ¬Law t := by
  intro ht
  have hmem : is ∉ s.mruSources := fun hmem => his (hlaw.perm.mem_iff.mp hmem)
  have hhead := ht.head
  rw [h.currentSource, h.mruSources, moveToFront_of_not_mem hmem] at hhead
  exact hmem (List.mem_of_mem_head? hhead.symm)

theorem Activated.linked (h : Activated s is t) (hs : Linked s)
    (his : is ∈ s.inputSources) : Linked t := by
  refine ⟨?_, ?_, ?_, ?_, ?_⟩
  · rw [h.inputSources]
    exact hs.nodup
  · intro window ws hws
    rw [h.generation]
    rcases h.windows window ws hws with hold | rfl
    · exact hs.generation window ws hold
    · exact Nat.le_refl _
  · intro window ws hws heq
    rw [h.generation] at heq
    rw [h.inputSources]
    rcases h.windows window ws hws with hold | rfl
    · exact hs.present window ws hold heq
    · intro is' his'
      obtain rfl := Option.some.inj his'
      exact his
  · intro hdisable
    rw [h.disableIBus] at hdisable
    rw [h.backup, h.passwordOrder]
    exact hs.entered hdisable
  · intro hdisable
    rw [h.disableIBus] at hdisable
    rw [h.backup]
    exact hs.left hdisable

structure Inv (s : State) : Prop where
  law : Law s
  linked : Linked s

def State.core (s : State) :=
  (s.inputSources, s.mruSources, s.currentSource, s.generation, s.windowSources,
    s.mruSourcesBackup, s.disableIBus, s.passwordOrder)

theorem Inv.congr (h : Inv s) (hcore : t.core = s.core) : Inv t := by
  simp only [State.core, Prod.mk.injEq] at hcore
  obtain ⟨hinput, hmru, hcurrent, hgeneration, hwindows, hbackup, hdisable, horder⟩ := hcore
  refine ⟨⟨?_, ?_, ?_⟩, ?_, ?_, ?_, ?_, ?_⟩
  · rw [hmru, hinput]
    exact h.law.perm
  · rw [hmru]
    exact h.law.nodup
  · rw [hcurrent, hmru]
    exact h.law.head
  · rw [hinput]
    exact h.linked.nodup
  · rw [hwindows, hgeneration]
    exact h.linked.generation
  · rw [hwindows, hgeneration, hinput]
    exact h.linked.present
  · rw [hdisable, hbackup, horder]
    exact h.linked.entered
  · rw [hdisable, hbackup]
    exact h.linked.left

theorem Inv.activate {s : State} (h : Inv s) (his : is ∈ s.inputSources)
    (interactive : Bool) : Inv (s.activateInputSource is interactive) :=
  ⟨(activated s is interactive).law h.law his, (activated s is interactive).linked h.linked his⟩

theorem Inv.modifiersSwitcher {s : State} (h : Inv s) : Inv s.modifiersSwitcher := by
  rw [State.modifiersSwitcher]
  split
  · exact h
  · dsimp only
    split
    · exact h
    · next hget => exact h.activate (List.mem_of_getElem? hget) true

theorem mem_getNewInputSource {s : State} {current : Option InputSource}
    (h : s.getNewInputSource current = some is) : is ∈ s.inputSources := by
  rw [State.getNewInputSource] at h
  split at h
  · next found hfind =>
    obtain ⟨old, -, hold⟩ := Option.bind_eq_some_iff.mp hfind
    obtain rfl := Option.some.inj h
    exact List.mem_of_find?_eq_some hold
  · exact List.mem_of_mem_head? h

theorem Linked.store {s : State} (h : Linked s) (window : ℕ) {source : Option InputSource}
    (hsource : ∀ is ∈ source, is ∈ s.inputSources) :
    Linked { s with
      windowSources := Function.update s.windowSources window (some ⟨s.generation, source⟩) } := by
  have hlookup : ∀ window' ws,
      Function.update s.windowSources window (some ⟨s.generation, source⟩) window' = some ws →
        ws = ⟨s.generation, source⟩ ∨ s.windowSources window' = some ws := by
    intro window' ws hws
    rw [Function.update_apply] at hws
    split at hws
    · exact .inl (Option.some.inj hws).symm
    · exact .inr hws
  refine ⟨h.nodup, ?_, ?_, h.entered, h.left⟩
  · intro window' ws hws
    rcases hlookup window' ws hws with rfl | hold
    · exact Nat.le_refl _
    · exact h.generation window' ws hold
  · intro window' ws hws heq
    rcases hlookup window' ws hws with rfl | hold
    · exact hsource
    · exact h.present window' ws hold heq

theorem Inv.setPerWindowInputSource {s : State} (h : Inv s) : Inv s.setPerWindowInputSource := by
  rw [State.setPerWindowInputSource]
  split
  · exact h
  · next window hwindow =>
    dsimp only
    generalize hsource : (if (s.windowSources window).map (·.inputSources) = some s.generation then
      (s.windowSources window).bind (·.currentSource)
      else s.getNewInputSource ((s.windowSources window).bind (·.currentSource))) = source
    have hpresent : ∀ is ∈ source, is ∈ s.inputSources := by
      intro is his
      obtain rfl : source = some is := his
      split at hsource
      · next hsame =>
        obtain ⟨ws, hws, heq⟩ := Option.map_eq_some_iff.mp hsame
        rw [hws] at hsource
        exact h.linked.present window ws hws heq is hsource
      · exact mem_getNewInputSource hsource
    have hstored : Inv { s with
        windowSources := Function.update s.windowSources window (some ⟨s.generation, source⟩) } :=
      ⟨⟨h.law.perm, h.law.nodup, h.law.head⟩, h.linked.store window hpresent⟩
    cases source with
    | none => exact hstored
    | some is => exact hstored.activate (hpresent is rfl) false

theorem Inv.sourcesPerWindowChanged {s : State} (h : Inv s) : Inv s.sourcesPerWindowChanged := by
  rw [State.sourcesPerWindowChanged]
  split
  · refine ⟨⟨h.law.perm, h.law.nodup, h.law.head⟩, h.linked.nodup, ?_, ?_, h.linked.entered,
      h.linked.left⟩
    · intro window ws hws
      cases hws
    · intro window ws hws
      cases hws
  · exact h.congr rfl

theorem Linked.changed {s u : State} (h : Linked s) (hasLayout : String → Bool)
    (hwindows : u.windowSources = s.windowSources) (hgeneration : u.generation = s.generation)
    (hentered : u.disableIBus = true → u.mruSourcesBackup.map settings = some u.passwordOrder) :
    Inv (u.inputSourcesChanged hasLayout) := by
  have hchanged := InputSourceManager.changed hasLayout u
  refine ⟨hchanged.law, hchanged.linked ?_ hentered⟩
  intro window ws hws
  rw [hwindows] at hws
  rw [hgeneration]
  exact h.generation window ws hws

theorem Inv.ibusReadyCallback {s : State} (h : Inv s) (hasLayout : String → Bool) (ready : Bool) :
    Inv (s.ibusReadyCallback hasLayout ready) := by
  rw [State.ibusReadyCallback]
  split
  · exact h
  · exact h.linked.changed hasLayout rfl rfl h.linked.entered

theorem Inv.ibusSetContentType {s : State} (h : Inv s) (hasLayout : String → Bool)
    (password : Bool) : Inv (s.ibusSetContentType hasLayout password) := by
  rw [State.ibusSetContentType]
  split
  · exact h
  · split
    · split
      · exact h
      · split
        · exact h
        · exact h.linked.changed hasLayout rfl rfl fun _ => rfl
    · split
      · exact h
      · refine h.linked.changed hasLayout rfl rfl fun hdisable => ?_
        cases hdisable

/-! ## Steps -/

theorem Inv.step_other (h : Inv s) (hstep : step hasLayout s e = some t)
    (hother : ∀ is interactive, e ≠ .activate is interactive) : Inv t := by
  cases e with
  | sourcesChanged sources =>
    obtain rfl := Option.some.inj hstep
    exact h.linked.changed hasLayout rfl rfl h.linked.entered
  | mruSourcesChanged | switcherDestroyed | currentWindow =>
    obtain rfl := Option.some.inj hstep
    exact h.congr rfl
  | perWindowChanged perWindow =>
    obtain rfl := Option.some.inj hstep
    have hset : Inv { s with settingsPerWindow := perWindow } := h.congr rfl
    exact hset.sourcesPerWindowChanged
  | ready engines =>
    obtain rfl := Option.some.inj hstep
    have hset : Inv { s with engines := engines.getD [] } := h.congr rfl
    exact hset.ibusReadyCallback hasLayout _
  | setContentType password =>
    obtain rfl := Option.some.inj hstep
    exact h.ibusSetContentType hasLayout password
  | reload =>
    obtain rfl := Option.some.inj hstep
    exact h.linked.changed hasLayout rfl rfl h.linked.entered
  | activate is interactive => exact absurd rfl (hother is interactive)
  | modifiersSwitcher =>
    obtain rfl := Option.some.inj hstep
    exact h.modifiersSwitcher
  | switchInputSource =>
    obtain rfl := Option.some.inj hstep
    split
    · exact h
    · exact h.congr rfl
  | setPerWindowInputSource =>
    rw [InputSourceManager.step] at hstep
    split at hstep
    · obtain rfl := Option.some.inj hstep
      exact h.setPerWindowInputSource
    · cases hstep

theorem Kept.of_law (h : Law t)
    (hsources : ∀ sources, e ≠ .sourcesChanged sources) (hleft : e ≠ .setContentType false) :
    Kept s e t :=
  ⟨h, fun sources heq => absurd heq (hsources sources), fun sources heq => absurd heq (hsources sources),
    fun heq => absurd heq hleft⟩

theorem Linked.recalled {s : State} (h : Linked s) : s.recalled = s.mruSources := by
  rw [State.recalled]
  split
  · rfl
  · next hdisable =>
    rw [h.left (by simpa using hdisable)]
    rfl

theorem Changed.order (h : Changed hasLayout s t) :
    ((settings s.recalled).bagInter (settings t.inputSources)).Sublist (settings t.mruSources) := by
  obtain ⟨mruSources, hrecalled, hsorted⟩ := h.mruSources
  cases hcases : s.recalled with
  | nil =>
    show (List.bagInter [] _).Sublist _
    rw [List.nil_bagInter]
    exact List.nil_sublist _
  | cons is rest =>
    have hmru := hrecalled (by rw [hcases]; exact List.cons_ne_nil _ _)
    rw [← hcases, hsorted, hmru]
    exact settings_sortSources_sublist s.recalled t.inputSources

/-- The source at the head of that order, if it remains: with another one behind it, it becomes the
current one; alone, it does if it is the first of the new ones. -/
theorem Changed.current_iff
    {rest : List InputSource} (h : Changed hasLayout s t) (hrecalled : s.recalled = is :: rest)
    (hremains : is.setting ∈ settings t.inputSources) :
    t.currentSource.map InputSource.setting = some is.setting ↔
      (rest = [] → (settings t.inputSources).head? = some is.setting) := by
  obtain ⟨mruSources, heq, hsorted⟩ := h.mruSources
  have hmru : mruSources = is :: rest := (heq (by rw [hrecalled]; exact List.cons_ne_nil _ _)).trans hrecalled
  rw [h.currentSource, ← List.head?_map]
  cases rest with
  | nil =>
    have hsame : t.mruSources = t.inputSources := by
      rw [hsorted, hmru]
      rfl
    rw [hsame]
    exact ⟨fun hhead _ => hhead, fun hhead => hhead rfl⟩
  | cons second rest =>
    refine iff_of_true ?_ fun hnil => absurd hnil (List.cons_ne_nil _ _)
    have hlong : 1 < mruSources.length := by
      rw [hmru]
      exact Nat.succ_lt_succ (Nat.succ_pos _)
    have hfirst : (settings mruSources).bagInter (settings t.inputSources) <+:
        settings (sortSources mruSources t.inputSources) := settings_sortSources hlong
    obtain ⟨others, hprefix⟩ := hfirst
    rw [← hsorted, hmru] at hprefix
    have hcommon := List.cons_bagInter_of_mem (settings (second :: rest)) hremains
    show (settings t.mruSources).head? = _
    rw [← hprefix]
    show (List.bagInter (is.setting :: settings (second :: rest)) _ ++ others).head? = _
    rw [hcommon]
    rfl

theorem kept_sourcesChanged_iff {s : State} (h : Inv s) (sources : List Setting) :
    Kept s (.sourcesChanged sources)
        ({ s with settingsSources := sources }.inputSourcesChanged hasLayout) ↔
      Present hasLayout s (.sourcesChanged sources) := by
  have hchanged := changed hasLayout { s with settingsSources := sources }
  have hrecalled : State.recalled { s with settingsSources := sources } = s.mruSources :=
    h.linked.recalled
  have hinfos : settings ({ s with settingsSources := sources }.inputSourcesChanged hasLayout).inputSources
      = { s with settingsSources := sources }.infosList hasLayout := by
    rw [hchanged.inputSources]
    exact settings_makeSources _ _
  generalize ({ s with settingsSources := sources } : State).inputSourcesChanged hasLayout = t
    at hchanged hinfos ⊢
  have hiff : ∀ is ∈ s.currentSource, is.setting ∈ settings t.inputSources →
      (t.currentSource.map InputSource.setting = some is.setting ↔
        (s.mruSources.length = 1 → (settings t.inputSources).head? = some is.setting)) := by
    intro is his hremains
    obtain ⟨rest, hrest⟩ : ∃ rest, s.mruSources = is :: rest := by
      rw [h.law.head] at his
      exact List.head?_eq_some_iff.mp his
    rw [hchanged.current_iff (hrecalled.trans hrest) hremains, hrest]
    simp
  rw [hinfos] at hiff
  constructor
  · intro hkept hlength is his hremains
    have hcurrent := hkept.current sources rfl is his (hinfos ▸ hremains)
    exact (hiff is his hremains).mp hcurrent hlength
  · intro hpresent
    refine ⟨hchanged.law, fun sources' heq is his hremains => ?_, fun _ _ => ?_, fun heq => ?_⟩
    · rw [hinfos] at hremains
      exact (hiff is his hremains).mpr fun hlength => hpresent hlength is his hremains
    · rw [← hrecalled]
      exact hchanged.order
    · cases heq

theorem kept_setContentType {s : State} (h : Inv s) (password : Bool) :
    Kept s (.setContentType password) (s.ibusSetContentType hasLayout password) := by
  refine ⟨(h.ibusSetContentType hasLayout password).law, fun _ heq => ?_, fun _ heq => ?_, ?_⟩
  · cases heq
  · cases heq
  · intro heq hdisable hleft
    obtain rfl : password = false := Event.setContentType.inj heq
    rw [State.ibusSetContentType] at hleft ⊢
    split at hleft
    · rw [hdisable] at hleft
      cases hleft
    · next hpopup =>
      rw [if_neg hpopup, hdisable]
      have hchanged := changed hasLayout { s with disableIBus := false }
      have hentered := h.linked.entered hdisable
      obtain ⟨backup, hbackup, hsettings⟩ := Option.map_eq_some_iff.mp hentered
      have hrecalled : State.recalled { s with disableIBus := false } = backup := by
        show s.mruSourcesBackup.getD s.mruSources = backup
        rw [hbackup]
        rfl
      have horder := hchanged.order
      rw [hrecalled, hsettings] at horder
      exact horder

theorem step_activate
    {interactive : Bool} (h : Inv s) (hstep : step hasLayout s (.activate is interactive) = some t) :
    (is ∈ s.inputSources → Inv t) ∧ (Law t → is ∈ s.inputSources) := by
  rw [step] at hstep
  split at hstep
  · obtain rfl := Option.some.inj hstep
    refine ⟨fun his => h.activate his interactive, fun hlaw => ?_⟩
    by_contra his
    exact (activated s is interactive).not_law h.law his hlaw
  · cases hstep

theorem Inv.step (h : Inv s) (hstep : step hasLayout s e = some t) (hlaw : Law t) : Inv t := by
  cases e with
  | activate is interactive =>
    obtain ⟨hkeeps, hpresent⟩ := step_activate h hstep
    exact hkeeps (hpresent hlaw)
  | sourcesChanged | setContentType | mruSourcesChanged | perWindowChanged | ready | reload
  | modifiersSwitcher | switchInputSource | switcherDestroyed | currentWindow
  | setPerWindowInputSource => exact h.step_other hstep fun _ _ => nofun

theorem kept_step_iff (h : Inv s)
    (hstep : step hasLayout s e = some t) : Kept s e t ↔ Present hasLayout s e := by
  cases e with
  | sourcesChanged sources =>
    obtain rfl := Option.some.inj hstep
    exact kept_sourcesChanged_iff h sources
  | setContentType password =>
    obtain rfl := Option.some.inj hstep
    exact iff_of_true (kept_setContentType h password) trivial
  | activate is interactive =>
    obtain ⟨hkeeps, hpresent⟩ := step_activate h hstep
    constructor
    · exact fun hkept => hpresent hkept.law
    · exact fun his => .of_law (hkeeps his).law (fun _ => nofun) nofun
  | mruSourcesChanged | perWindowChanged | ready | reload | modifiersSwitcher | switchInputSource
  | switcherDestroyed | currentWindow | setPerWindowInputSource =>
    have hinv := h.step_other hstep fun _ _ => nofun
    exact iff_of_true (.of_law hinv.law (fun _ => nofun) nofun) trivial

/-! ## Runs -/

theorem inv_new (sources mruSources : List Setting) (perWindow : Bool) :
    Inv (State.new sources mruSources perWindow) := by
  refine ⟨⟨.nil, List.nodup_nil, rfl⟩, List.nodup_nil, ?_, ?_, ?_, fun _ => rfl⟩
  · intro window ws hws
    cases hws
  · intro window ws hws
    cases hws
  · intro hdisable
    cases hdisable

/-- **The order of use along a run.** -/
theorem run_mostRecent_iff {hasLayout : String → Bool} (sources mruSources : List Setting)
    (perWindow : Bool) {es : List Event} {t : State}
    (hrun : Runs.run (step hasLayout) (State.new sources mruSources perWindow) es = some t) :
    Runs.Along (step hasLayout) Kept (State.new sources mruSources perWindow) es ↔
      Runs.Allowed (step hasLayout) (Present hasLayout) (State.new sources mruSources perWindow) es :=
  Runs.along_iff_allowed (I := Inv) (inv_new sources mruSources perWindow)
    (fun _ _ _ h hstep hkept => h.step hstep hkept.law) (fun _ _ _ h => kept_step_iff h) hrun

def us : Setting := ⟨.xkb, "us"⟩

def de : Setting := ⟨.xkb, "de"⟩

def anthy : Setting := ⟨.ibus, "anthy"⟩

/-- IBus becomes ready, sources are used, a password field is entered and left, another source comes
in front, and windows get sources of their own. -/
def usedInOrder : List Event :=
  [.reload, .ready (some ["anthy"]), .activate ⟨.ibus, "anthy", 1, 2⟩ true,
    .activate ⟨.xkb, "de", 2, 2⟩ true, .setContentType true, .modifiersSwitcher,
    .setContentType false, .sourcesChanged [⟨.xkb, "fr"⟩, de, anthy, us], .perWindowChanged true,
    .currentWindow (some 1), .setPerWindowInputSource, .activate ⟨.xkb, "us", 3, 5⟩ false]

theorem run_mostRecent_usedInOrder :
    ∃ t, Runs.run (step fun _ => true) (State.new [us, anthy, de] [] false) usedInOrder = some t ∧
      Runs.Along (step fun _ => true) Kept (State.new [us, anthy, de] [] false) usedInOrder := by
  obtain ⟨t, hrun⟩ : ∃ t,
      Runs.run (step fun _ => true) (State.new [us, anthy, de] [] false) usedInOrder = some t :=
    Option.isSome_iff_exists.mp (by decide)
  exact ⟨t, hrun, (run_mostRecent_iff [us, anthy, de] [] false hrun).mpr (by decide)⟩

def oldSource : List Event :=
  [.reload, .switchInputSource, .sourcesChanged [us, de, ⟨.xkb, "fr"⟩],
    .activate ⟨.xkb, "de", 1, 1⟩ true]

/-- There is one source, and another one is put in front of it. -/
theorem not_run_mostRecent :
    (∃ t, Runs.run (step fun _ => true) (State.new [us, de] [] false) oldSource = some t ∧ ¬Law t) ∧
      ∃ s t, Runs.run (step fun _ => true) (State.new [us] [] false) [.reload] = some s ∧
        step (fun _ => true) s (.sourcesChanged [de, us]) = some t ∧
        ¬Kept s (.sourcesChanged [de, us]) t := by
  constructor
  · have hend : (Runs.run (step fun _ => true) (State.new [us, de] [] false) oldSource).map
        (fun t => decide (t.currentSource = t.mruSources.head?)) = some false := by decide
    obtain ⟨t, hrun, hstate⟩ := Option.map_eq_some_iff.mp hend
    exact ⟨t, hrun, fun hlaw => of_decide_eq_false hstate hlaw.head⟩
  · have hend : ((Runs.run (step fun _ => true) (State.new [us] [] false) [.reload]).bind fun s =>
        (step (fun _ => true) s (.sourcesChanged [de, us])).map fun t =>
          (s.currentSource.map InputSource.setting, settings t.inputSources,
            t.currentSource.map InputSource.setting)) = some (some us, [de, us], some de) := by decide
    obtain ⟨s, hrun, hstep⟩ := Option.bind_eq_some_iff.mp hend
    obtain ⟨t, hstep, hstate⟩ := Option.map_eq_some_iff.mp hstep
    refine ⟨s, t, hrun, hstep, fun hkept => ?_⟩
    simp only [Prod.mk.injEq] at hstate
    obtain ⟨hbefore, hsources, hafter⟩ := hstate
    obtain ⟨is, his, hus⟩ := Option.map_eq_some_iff.mp hbefore
    have hcurrent := hkept.current [de, us] rfl is his (by rw [hus, hsources]; decide)
    rw [hafter, hus] at hcurrent
    exact absurd hcurrent (by decide)

end InputSourceManager
