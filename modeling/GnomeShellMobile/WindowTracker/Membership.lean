import GnomeShellMobile.WindowTracker.Tracker

/-!
# WindowTracker — the lists of the applications against the table

A window should be in the list of an application if and only if the tracker maps it to that
application. A transient window is matched through the window it is transient for, and the last
resort makes an application that lists that window, which the tracker need not map to it. So a
run keeps the lists and the table in agreement if and only if each window that it tracks is
`Resolved`: it is not transient, or something else than the last resort is found.

* **`Inv.track`**, **`not_agree_track`**: tracking a window that is resolved, or is not.
* **`Inv.disassociate`**: the other half of a change.
* **`agree_run_iff`**: the runs.
-/

namespace WindowTracker

/-! ## Chains of transients -/

def rootOf (w : WindowId) : List WindowId → WindowId
  | [] => w
  | p :: ps => rootOf p ps

/-- The window at the end of a chain is not transient. Induction on the chain. -/
theorem Transients.chain_rootOf (t : Transients) {w : WindowId} {ps : List WindowId}
    (h : t.chain w = ps) : t.chain (rootOf w ps) = [] := by
  induction ps generalizing w with
  | nil => exact h
  | cons p ps ih => exact ih (t.tail w p ps h)

theorem Transients.rootOf_ne (t : Transients) {w : WindowId} (h : t.chain w ≠ []) :
    rootOf w (t.chain w) ≠ w := by
  intro heq
  have hroot := t.chain_rootOf (w := w) rfl
  rw [heq] at hroot
  exact h hroot

namespace State

variable {s : State} {w : WindowId} {a : AppId}

/-- The application of a window is found at the end of its chain. Induction on the chain. -/
theorem getAppForWindow_eq (s : State) (w : WindowId) (ps : List WindowId) :
    s.getAppForWindow w ps = s.getAppForWindow (rootOf w ps) [] := by
  induction ps generalizing w with
  | nil => rfl
  | cons p ps ih => exact ih p

/-! ## Updates of an application -/

theorem app_setApp (s : State) (a b : AppId) (x : App) :
    (s.setApp a x).app b = if b = a then x else s.app b := by
  show ((s.apps.set a x).get? b).getD .init = _
  rw [Dict.get?_set]
  split <;> rfl

structure SameTable (s t : State) : Prop where
  windowToApp : t.windowToApp = s.windowToApp
  created : t.created = s.created
  managed : t.managed = s.managed
  nextApp : t.nextApp = s.nextApp
  transients : t.transients = s.transients

structure SameLists (s t : State) : Prop extends SameTable s t where
  windows : ∀ b, (t.app b).windows = (s.app b).windows

theorem SameTable.trans {s t u : State} (h1 : SameTable s t) (h2 : SameTable t u) : SameTable s u :=
  ⟨h2.windowToApp.trans h1.windowToApp, h2.created.trans h1.created, h2.managed.trans h1.managed,
    h2.nextApp.trans h1.nextApp, h2.transients.trans h1.transients⟩

theorem SameTable.refl (s : State) : SameTable s s := ⟨rfl, rfl, rfl, rfl, rfl⟩

theorem SameLists.refl (s : State) : SameLists s s := ⟨.refl s, fun _ => rfl⟩

theorem SameLists.trans {s t u : State} (h1 : SameLists s t) (h2 : SameLists t u) : SameLists s u :=
  ⟨h1.toSameTable.trans h2.toSameTable, fun b => (h2.windows b).trans (h1.windows b)⟩

variable (s)

theorem sameTable_setApp (a : AppId) (x : App) : SameTable s (s.setApp a x) :=
  ⟨rfl, rfl, rfl, rfl, rfl⟩

theorem sameLists_setApp {x : App} (hx : x.windows = (s.app a).windows) :
    SameLists s (s.setApp a x) := by
  refine ⟨⟨rfl, rfl, rfl, rfl, rfl⟩, fun b => ?_⟩
  rw [app_setApp]
  split
  · next hb => rw [hx, hb]
  · rfl

theorem sameLists_notify (a : AppId) (state : AppState) :
    SameLists s (s.notifyAppStateChanged a state) := by
  cases state <;> exact ⟨⟨rfl, rfl, rfl, rfl, rfl⟩, fun _ => rfl⟩

theorem sameLists_stateTransition (a : AppId) (state : AppState) :
    SameLists s (s.stateTransition a state) := by
  unfold stateTransition
  split
  · exact .refl s
  split
  · exact .refl s
  · exact (s.sameLists_setApp (by rfl)).trans (sameLists_notify _ a state)

theorem sameLists_sync (a : AppId) : SameLists s (s.syncRunningState a) := by
  unfold syncRunningState
  split
  · exact .refl s
  split
  · exact s.sameLists_stateTransition a .stopped
  · exact s.sameLists_stateTransition a .running

theorem sameLists_dropRunningState (a : AppId) :
    SameLists s (s.dropRunningState a) := by
  unfold dropRunningState
  split
  · exact s.sameLists_setApp (by rfl)
  · exact .refl s

theorem sameLists_countWindow (w : WindowId) (more : Option Bool) (a : AppId) :
    SameLists s (s.countWindow w more a) := by
  unfold countWindow
  split
  · exact (s.sameLists_setApp (by rfl)).trans (sameLists_sync _ a)
  · exact .refl s

/-- Induction on the applications that are told. -/
theorem sameLists_countWindows (w : WindowId) (more : Option Bool) :
    SameLists s (s.countWindows w more) := by
  unfold countWindows
  generalize s.apps.keys = as
  induction as generalizing s with
  | nil => exact .refl s
  | cons a as ih => exact (s.sameLists_countWindow w more a).trans (ih _)

theorem sameLists_handleStartupSequence (a : AppId) (completed : Bool) :
    SameLists s (s.handleStartupSequence a completed) := by
  unfold handleStartupSequence
  split
  · split
    · exact s.sameLists_stateTransition a .stopped
    · exact s.sameLists_stateTransition a .running
  split
  · exact s.sameLists_stateTransition a .starting
  · exact .refl s

variable {s}

/-! ## Adding and removing a window -/

theorem addWindow_table (s : State) (a : AppId) (w : WindowId) : SameTable s (s.addWindow a w) := by
  unfold addWindow
  split
  · exact .refl s
  · exact (s.sameTable_setApp a _).trans (sameLists_sync _ a).toSameTable

theorem windows_addWindow (s : State) (a b : AppId) (w : WindowId) :
    ((s.addWindow a w).app b).windows =
      if b = a ∧ w ∉ (s.app a).windows then w :: (s.app b).windows else (s.app b).windows := by
  unfold addWindow
  by_cases hw : w ∈ (s.app a).windows
  · rw [if_pos hw, if_neg (fun h => h.2 hw)]
  · rw [if_neg hw, (sameLists_sync _ a).windows, app_setApp]
    by_cases hb : b = a
    · subst hb
      have hadd : b = b ∧ w ∉ (s.app b).windows := ⟨rfl, hw⟩
      rw [if_pos hadd, if_pos hadd.1]
    · rw [if_neg hb, if_neg (fun h => hb h.1)]

theorem mem_addWindow {a b : AppId} {v w : WindowId} :
    v ∈ ((s.addWindow a w).app b).windows ↔ v ∈ (s.app b).windows ∨ b = a ∧ v = w := by
  rw [windows_addWindow]
  split
  · next h =>
    rw [List.mem_cons]
    constructor
    · rintro (hv | hv)
      · exact .inr ⟨h.1, hv⟩
      · exact .inl hv
    · rintro (hv | hv)
      · exact .inr hv
      · exact .inl hv.2
  · next h =>
    constructor
    · exact .inl
    · rintro (hv | ⟨rfl, rfl⟩)
      · exact hv
      · by_contra hv
        exact h ⟨rfl, hv⟩

theorem removeWindow_table (s : State) (a : AppId) (w : WindowId) :
    SameTable s (s.removeWindow a w) := by
  unfold removeWindow
  split
  · exact (s.sameTable_setApp a _).trans
      ((sameLists_sync _ a).trans (sameLists_dropRunningState _ a)).toSameTable
  · exact .refl s

theorem windows_removeWindow (s : State) (a b : AppId) (w : WindowId) :
    ((s.removeWindow a w).app b).windows =
      if b = a then (s.app b).windows.erase w else (s.app b).windows := by
  unfold removeWindow
  by_cases hw : w ∈ (s.app a).windows
  · rw [if_pos hw, (sameLists_dropRunningState _ a).windows, (sameLists_sync _ a).windows,
      app_setApp]
    by_cases hb : b = a
    · subst hb
      rw [if_pos (rfl : b = b), if_pos (rfl : b = b)]
    · rw [if_neg hb, if_neg hb]
  · rw [if_neg hw]
    split
    · next hb => rw [hb, List.erase_of_not_mem hw]
    · rfl

/-! ## Agreement -/

structure Agree (s : State) : Prop where
  listed_iff : ∀ a w, w ∈ (s.app a).windows ↔ s.windowToApp.get? w = some a
  managed : ∀ a, ∀ w ∈ (s.app a).windows, w ∈ s.managed

structure Inv (s : State) : Prop extends Agree s where
  nodup : ∀ a, (s.app a).windows.Nodup
  fresh : ∀ n, s.nextApp ≤ n → (s.app (.windowBacked n)).windows = []
  created : ∀ w ∈ s.managed, w ∈ s.created

def Resolved (s : State) (w : WindowId) : Prop :=
  s.transients.chain w = [] ∨ (s.matchWindow (rootOf w (s.transients.chain w))).isSome
deriving Decidable

theorem Inv.frame {s t : State} (hs : s.Inv) (h : SameLists s t) : t.Inv := by
  refine ⟨⟨fun a w => ?_, fun a w hw => ?_⟩, fun a => ?_, fun n hn => ?_, fun w hw => ?_⟩
  · rw [h.windows, h.windowToApp]
    exact hs.listed_iff a w
  · rw [h.managed]
    rw [h.windows] at hw
    exact hs.managed a w hw
  · rw [h.windows]
    exact hs.nodup a
  · rw [h.windows]
    exact hs.fresh n (h.nextApp ▸ hn)
  · rw [h.created]
    exact hs.created w (h.managed ▸ hw)

theorem Inv.get_ne_next (hs : s.Inv) (w : WindowId) :
    s.windowToApp.get? w ≠ some (.windowBacked s.nextApp) := by
  intro h
  rw [← hs.listed_iff, hs.fresh s.nextApp (Nat.le_refl _)] at h
  cases h

theorem Inv.listed {s t : State} (hs : s.Inv) (hw : w ∈ s.managed)
    (hnone : s.windowToApp.get? w = none)
    (htable : t.windowToApp = s.windowToApp.set w a) (hmanaged : t.managed = s.managed)
    (hcreated : t.created = s.created) (hnext : s.nextApp ≤ t.nextApp)
    (ha : ∀ n, a = .windowBacked n → n < t.nextApp)
    (hmem : ∀ b v, v ∈ (t.app b).windows ↔ v ∈ (s.app b).windows ∨ b = a ∧ v = w)
    (hnodup : ∀ b, (t.app b).windows.Nodup) : t.Inv := by
  refine ⟨⟨fun b v => ?_, fun b v hv => ?_⟩, hnodup, fun n hn => ?_, fun v hv => ?_⟩
  · rw [hmem, hs.listed_iff, htable, Dict.get?_set]
    by_cases hv : v = w
    · subst hv
      rw [if_pos rfl, hnone]
      constructor
      · rintro (h | ⟨rfl, -⟩)
        · cases h
        · rfl
      · intro h
        exact .inr ⟨(Option.some_inj.mp h).symm, rfl⟩
    · rw [if_neg hv]
      exact or_iff_left fun h => hv h.2
  · rw [hmanaged]
    rcases (hmem b v).mp hv with hv | ⟨-, rfl⟩
    · exact hs.managed b v hv
    · exact hw
  · refine List.eq_nil_iff_forall_not_mem.mpr fun v hv => ?_
    rcases (hmem _ v).mp hv with hv | ⟨heq, -⟩
    · rw [hs.fresh n (by omega)] at hv
      cases hv
    · have hlt := ha n heq.symm
      omega
  · rw [hmanaged] at hv
    rw [hcreated]
    exact hs.created v hv

theorem nodup_addWindow {a b : AppId}
    (hb : (s.app b).windows.Nodup) : ((s.addWindow a w).app b).windows.Nodup := by
  rw [windows_addWindow]
  split
  · next h => exact List.nodup_cons.mpr ⟨h.1 ▸ h.2, hb⟩
  · exact hb

theorem Inv.associate (hs : s.Inv) (hw : w ∈ s.managed) (hnone : s.windowToApp.get? w = none)
    (ha : ∀ n, a = .windowBacked n → n < s.nextApp) : (s.associate w a).Inv := by
  have htable := addWindow_table { s with windowToApp := s.windowToApp.set w a } a w
  refine hs.listed hw hnone htable.windowToApp htable.managed htable.created ?_ ?_ ?_ ?_
  · exact Nat.le_of_eq htable.nextApp.symm
  · intro n hn
    rw [show (s.associate w a).nextApp = _ from htable.nextApp]
    exact ha n hn
  · exact fun b v => mem_addWindow
  · exact fun b => nodup_addWindow (hs.nodup b)

theorem Inv.newForWindow (hs : s.Inv) (hw : w ∈ s.managed) (hnone : s.windowToApp.get? w = none) :
    ((s.newForWindow w).1.associate w (s.newForWindow w).2).Inv := by
  have hnew := addWindow_table { s with nextApp := s.nextApp + 1 } (.windowBacked s.nextApp) w
  have htable := addWindow_table { (s.newForWindow w).1 with
    windowToApp := (s.newForWindow w).1.windowToApp.set w (s.newForWindow w).2 }
      (s.newForWindow w).2 w
  have hnext : ((s.newForWindow w).1.associate w (s.newForWindow w).2).nextApp = s.nextApp + 1 :=
    htable.nextApp.trans hnew.nextApp
  refine hs.listed (a := .windowBacked s.nextApp) hw hnone ?_ (htable.managed.trans hnew.managed)
    (htable.created.trans hnew.created) ?_ ?_ ?_ ?_
  · refine htable.windowToApp.trans ?_
    show (s.newForWindow w).1.windowToApp.set w _ = _
    rw [show (s.newForWindow w).1.windowToApp = _ from hnew.windowToApp]
    rfl
  · omega
  · intro n hn
    cases hn
    omega
  · intro b v
    have h1 := mem_addWindow (s := { s with nextApp := s.nextApp + 1 })
      (a := .windowBacked s.nextApp) (b := b) (v := v) (w := w)
    have h2 : v ∈ (((s.newForWindow w).1.associate w (s.newForWindow w).2).app b).windows ↔
        v ∈ ((s.newForWindow w).1.app b).windows ∨ b = (s.newForWindow w).2 ∧ v = w :=
      mem_addWindow
    rw [h2]
    show v ∈ ((addWindow _ _ w).app b).windows ∨ _ ↔ _
    rw [h1, or_assoc]
    exact or_congr_right (or_self_iff)
  · intro b
    exact nodup_addWindow (nodup_addWindow (hs.nodup b))

theorem Inv.disassociate (hs : s.Inv) (w : WindowId) :
    (s.disassociateWindow w).Inv ∧ (s.disassociateWindow w).windowToApp.get? w = none ∧
      (s.disassociateWindow w).managed = s.managed := by
  unfold disassociateWindow
  split
  · next hnone => exact ⟨hs, hnone, rfl⟩
  next a ha =>
  have htable := removeWindow_table { s with windowToApp := s.windowToApp.erase w } a w
  have hwin : ∀ b, ((removeWindow { s with windowToApp := s.windowToApp.erase w } a w).app b).windows =
      if b = a then (s.app b).windows.erase w else (s.app b).windows := fun b =>
    windows_removeWindow _ a b w
  have hmem : ∀ b v, v ∈ ((removeWindow { s with windowToApp := s.windowToApp.erase w } a w).app
      b).windows ↔ v ≠ w ∧ v ∈ (s.app b).windows := by
    intro b v
    rw [hwin]
    split
    · exact (hs.nodup b).mem_erase_iff
    · next hb =>
      refine (and_iff_right_of_imp fun hv hvw => hb ?_).symm
      rw [hvw, hs.listed_iff, ha] at hv
      exact (Option.some_inj.mp hv).symm
  refine ⟨⟨⟨fun b v => ?_, fun b v hv => ?_⟩, fun b => ?_, fun n hn => ?_, fun v hv => ?_⟩, ?_,
    htable.managed⟩
  · rw [hmem, hs.listed_iff, htable.windowToApp, Dict.get?_erase]
    split
    · next hv => exact ⟨fun h => absurd hv h.1, nofun⟩
    · next hv => exact and_iff_right hv
  · rw [htable.managed]
    exact hs.managed b v ((hmem b v).mp hv).2
  · rw [hwin]
    split
    · exact (hs.nodup b).erase w
    · exact hs.nodup b
  · rw [htable.nextApp] at hn
    rw [hwin, hs.fresh n hn]
    exact ite_self []
  · rw [htable.created]
    rw [htable.managed] at hv
    exact hs.created v hv
  · rw [htable.windowToApp]
    exact Dict.get?_erase_self _ w

theorem getAppForWindow_cases (s : State) (w : WindowId) (ps : List WindowId) :
    s.getAppForWindow w ps =
      match s.matchWindow (rootOf w ps) with
      | some a => (s, a)
      | none => s.newForWindow (rootOf w ps) := by
  rw [getAppForWindow_eq]
  rfl

theorem Inv.match_cases (hs : s.Inv)
    (h : s.matchWindow w = some a) : (∃ m, a = .desktop m) ∨ (s.app a).windows ≠ [] := by
  have hlisted : ∀ v, s.windowToApp.get? v = some a → (s.app a).windows ≠ [] := fun v hv =>
    List.ne_nil_of_mem ((hs.listed_iff a v).mpr hv)
  have hdesktop : ∀ o : Option Nat, o.map AppId.desktop = some a → ∃ m, a = .desktop m := by
    intro o ho
    obtain ⟨m, -, hm⟩ := Option.map_eq_some_iff.mp ho
    exact ⟨m, hm.symm⟩
  unfold matchWindow at h
  split at h
  · exact .inr (hlisted w h)
  split at h
  · cases h
  -- the ways of matching, in their order
  simp only [Option.or_eq_some_iff] at h
  rcases h with h | ⟨-, h | ⟨-, h | ⟨-, h | ⟨-, h | ⟨-, h⟩⟩⟩⟩⟩
  · exact .inl (hdesktop _ h)
  · exact .inl (hdesktop _ h)
  · exact .inl (hdesktop _ h)
  · -- an application of the same process has a window
    unfold getAppFromWindowPid at h
    split at h
    · cases h
    refine .inr fun hnil => ?_
    have hpid := List.find?_some h
    simp [getPids, hnil] at hpid
  · exact .inl (hdesktop _ h)
  · unfold getAppFromWindowGroup at h
    obtain ⟨v, -, hv⟩ := List.exists_of_findSome?_eq_some h
    split at hv
    · exact .inr (hlisted v hv)
    · cases hv

theorem Inv.match_lt (hs : s.Inv)
    (h : s.matchWindow w = some a) : ∀ n, a = .windowBacked n → n < s.nextApp := by
  rintro n rfl
  rcases hs.match_cases h with ⟨m, hm⟩ | hne
  · cases hm
  · by_contra hn
    exact hne (hs.fresh n (by omega))

theorem Inv.track (hs : s.Inv) (hw : w ∈ s.managed)
    (hnone : s.windowToApp.get? w = none) (hres : s.Resolved w) : (s.trackWindow w).Inv := by
  unfold trackWindow
  rw [getAppForWindow_cases]
  cases hmatch : s.matchWindow (rootOf w (s.transients.chain w)) with
  | some a => exact hs.associate hw hnone (hs.match_lt hmatch)
  | none =>
    rcases hres with hchain | hsome
    · rw [hchain]
      exact hs.newForWindow hw hnone
    · rw [hmatch] at hsome
      cases hsome

theorem not_agree_track (hs : s.Inv) (hres : ¬ s.Resolved w) : ¬ (s.trackWindow w).Agree := by
  obtain ⟨hchain, hmatch⟩ := not_or.mp hres
  rw [Option.not_isSome_iff_eq_none] at hmatch
  intro hagree
  unfold trackWindow at hagree
  rw [getAppForWindow_cases, hmatch] at hagree
  have hroot := s.transients.rootOf_ne hchain
  generalize rootOf w (s.transients.chain w) = r at hagree hroot
  have hlisted : r ∈ (((s.newForWindow r).1.associate w (s.newForWindow r).2).app
      (s.newForWindow r).2).windows := by
    refine mem_addWindow.mpr (.inl ?_)
    exact mem_addWindow.mpr (.inr ⟨rfl, rfl⟩)
  rw [hagree.listed_iff] at hlisted
  have htable := addWindow_table { (s.newForWindow r).1 with
    windowToApp := (s.newForWindow r).1.windowToApp.set w (s.newForWindow r).2 }
      (s.newForWindow r).2 w
  have hnew := addWindow_table { s with nextApp := s.nextApp + 1 } (.windowBacked s.nextApp) r
  rw [show ((s.newForWindow r).1.associate w (s.newForWindow r).2).windowToApp = _ from
    htable.windowToApp, Dict.get?_set_of_ne _ _ hroot,
    show (s.newForWindow r).1.windowToApp = _ from hnew.windowToApp] at hlisted
  exact hs.get_ne_next r hlisted

/-! ## The handlers of the tracker -/

def ChangeResolved (s : State) (w : WindowId) : Prop :=
  s.windowToApp.has w → (s.disassociateWindow w).Resolved w
deriving Decidable

section

variable (hs : s.Inv)
include hs

theorem Inv.managed_of_has (hw : s.windowToApp.has w) : w ∈ s.managed := by
  obtain ⟨a, ha⟩ := Dict.has_iff.mp hw
  exact hs.managed a w ((hs.listed_iff a w).mpr ha)

theorem Inv.trackedWindowChanged
    (hres : s.ChangeResolved w) : (s.trackedWindowChanged w).Inv := by
  unfold State.trackedWindowChanged
  split
  · next hw =>
    obtain ⟨hinv, hnone, hmanaged⟩ := hs.disassociate w
    exact hinv.track (hmanaged ▸ hs.managed_of_has hw) hnone (hres hw)
  · exact hs

theorem not_agree_trackedWindowChanged
    (hres : ¬ s.ChangeResolved w) : ¬ (s.trackedWindowChanged w).Agree := by
  obtain ⟨hw, hnot⟩ := Classical.not_imp.mp hres
  unfold State.trackedWindowChanged
  rw [if_pos hw]
  exact not_agree_track (hs.disassociate w).1 hnot

theorem Inv.manage (w : WindowId) :
    Inv { s with created := w :: s.created, managed := w :: s.managed } := by
  refine ⟨⟨hs.listed_iff, fun a v hv => List.mem_cons_of_mem w (hs.managed a v hv)⟩, hs.nodup,
    hs.fresh, fun v hv => ?_⟩
  rcases List.mem_cons.mp hv with rfl | hv
  · exact List.mem_cons_self
  · exact List.mem_cons_of_mem w (hs.created v hv)

theorem Inv.get_of_not_created (hw : w ∉ s.created) : s.windowToApp.get? w = none := by
  refine Option.eq_none_iff_forall_ne_some.mpr fun a ha => hw ?_
  exact hs.created w (hs.managed a w ((hs.listed_iff a w).mpr ha))

end

theorem disassociate_managed (s : State) (w : WindowId) (m : List WindowId) :
    (disassociateWindow { s with managed := m } w).windowToApp = (s.disassociateWindow w).windowToApp ∧
      (disassociateWindow { s with managed := m } w).created = s.created ∧
      (disassociateWindow { s with managed := m } w).managed = m ∧
      (disassociateWindow { s with managed := m } w).nextApp = (s.disassociateWindow w).nextApp ∧
      ∀ b, ((disassociateWindow { s with managed := m } w).app b).windows =
        ((s.disassociateWindow w).app b).windows := by
  simp only [disassociateWindow]
  cases s.windowToApp.get? w with
  | none => exact ⟨rfl, rfl, rfl, rfl, fun _ => rfl⟩
  | some a =>
    have h1 := removeWindow_table
      { s with managed := m, windowToApp := s.windowToApp.erase w } a w
    have h2 := removeWindow_table { s with windowToApp := s.windowToApp.erase w } a w
    refine ⟨h1.windowToApp.trans h2.windowToApp.symm, h1.created, h1.managed,
      h1.nextApp.trans h2.nextApp.symm, fun b => ?_⟩
    show ((removeWindow _ a w).app b).windows = ((removeWindow _ a w).app b).windows
    rw [windows_removeWindow, windows_removeWindow]
    rfl

theorem Inv.unmanaged (hs : s.Inv) (w : WindowId) : (s.onWindowUnmanaged w).Inv := by
  obtain ⟨hinv, hnone, hmanaged⟩ := hs.disassociate w
  obtain ⟨htable, hcreated, hm, hnext, hwin⟩ := s.disassociate_managed w (s.managed.filter (· ≠ w))
  unfold onWindowUnmanaged
  refine ⟨⟨fun b v => ?_, fun b v hv => ?_⟩, fun b => ?_, fun n hn => ?_, fun v hv => ?_⟩
  · rw [hwin, htable]
    exact hinv.listed_iff b v
  · rw [hwin] at hv
    rw [hm, List.mem_filter, decide_eq_true_iff]
    refine ⟨hmanaged ▸ hinv.managed b v hv, fun hvw => ?_⟩
    rw [hvw, hinv.listed_iff, hnone] at hv
    cases hv
  · rw [hwin]
    exact hinv.nodup b
  · rw [hwin]
    exact hinv.fresh n (hnext ▸ hn)
  · rw [hm] at hv
    rw [hcreated]
    exact hs.created v (List.mem_filter.mp hv).1

/-- Induction on the windows that are left. -/
theorem Inv.shutdown (hs : s.Inv) : s.onShutdown.Inv := by
  unfold onShutdown
  generalize s.windowToApp.keys = ws
  induction ws generalizing s with
  | nil => exact hs
  | cons w ws ih => exact ih (hs.disassociate w).1

theorem Inv.dispose (hs : s.Inv) (ha : a ∉ s.windowToApp.values) : (s.dispose a).Inv := by
  have hnil : (s.app a).windows = [] := by
    refine List.eq_nil_iff_forall_not_mem.mpr fun w hw => ha ?_
    rw [hs.listed_iff, Dict.get?_eq_some] at hw
    exact List.mem_map_of_mem (f := Prod.snd) hw
  refine hs.frame ⟨⟨rfl, rfl, rfl, rfl, rfl⟩, fun b => ?_⟩
  show (((s.apps.erase a).get? b).getD .init).windows = _
  rw [Dict.get?_erase]
  split
  · next hb => rw [hb, hnil]; rfl
  · rfl

end State

open State

theorem inv_new (window : WindowId → Window) (transients : Transients) (appSystem : AppSystem) :
    (State.new window transients appSystem).Inv :=
  ⟨⟨fun _ _ => ⟨nofun, nofun⟩, nofun⟩, fun _ => List.nodup_nil, fun _ _ => rfl, nofun⟩

/-! ## Steps -/

variable (s : State)

def Kept : Event → Prop
  | .created w => w ∉ s.created → s.Resolved w
  | .wmClassChanged w i c =>
    (s.setWindow w { s.window w with wmClassInstance := i, wmClass := c }).ChangeResolved w
  | .gtkApplicationIdChanged w id =>
    (s.setWindow w { s.window w with gtkApplicationId := id }).ChangeResolved w
  | .retrack w => s.ChangeResolved w
  | _ => True

instance (e : Event) : Decidable (Kept s e) := by
  unfold Kept
  split <;> infer_instance

def AgreeAfter (e : Event) : Prop := ∀ t, step s e = some t → t.Agree

theorem sameLists_setWindow (w : WindowId) (info : Window) :
    SameLists s (s.setWindow w info) :=
  ⟨⟨rfl, rfl, rfl, rfl, rfl⟩, fun _ => rfl⟩

/-- **The step lemma**, forwards. -/
theorem inv_step {s t : State} {e : Event} (hs : s.Inv) (hkept : Kept s e)
    (h : step s e = some t) : t.Inv := by
  cases e with
  | created w =>
    simp only [step] at h
    split at h
    · cases h
    next hw =>
    cases h
    exact (hs.manage w).track List.mem_cons_self (hs.get_of_not_created hw) (hkept hw)
  | unmanaged w =>
    simp only [step] at h
    split at h <;> cases h
    exact hs.unmanaged w
  | wmClassChanged w i c =>
    cases h
    exact (hs.frame (sameLists_setWindow s w _)).trackedWindowChanged hkept
  | gtkApplicationIdChanged w id =>
    cases h
    exact (hs.frame (sameLists_setWindow s w _)).trackedWindowChanged hkept
  | retrack w =>
    cases h
    exact hs.trackedWindowChanged hkept
  | traitsChanged w traits =>
    cases h
    exact hs.frame (sameLists_setWindow s w _)
  | isMappedChanged w b =>
    simp only [step] at h
    split at h <;> cases h
    exact hs.frame ((sameLists_setWindow s w _).trans (sameLists_countWindows _ w _))
  | isSkipTaskbarChanged w b =>
    simp only [step] at h
    split at h <;> cases h
    exact hs.frame ((sameLists_setWindow s w _).trans (sameLists_countWindows _ w _))
  | transientsChanged transients =>
    cases h
    exact ⟨⟨hs.listed_iff, hs.managed⟩, hs.nodup, hs.fresh, hs.created⟩
  | appSystemChanged appSystem =>
    cases h
    exact ⟨⟨hs.listed_iff, hs.managed⟩, hs.nodup, hs.fresh, hs.created⟩
  | startupSequence n completed =>
    cases h
    exact hs.frame (sameLists_handleStartupSequence s _ completed)
  | disposed a =>
    simp only [step] at h
    split at h
    · cases h
    next ha =>
    cases h
    exact hs.dispose fun hmem => ha (.inl hmem)
  | shutdown =>
    cases h
    exact hs.shutdown

/-- **The step lemma**, backwards. -/
theorem kept_of_agreeAfter {s : State} {e : Event} (hs : s.Inv) (h : AgreeAfter s e) :
    Kept s e := by
  by_contra hnot
  cases e with
  | created w =>
    obtain ⟨hw, hres⟩ := Classical.not_imp.mp hnot
    exact not_agree_track (hs.manage w) hres (h _ (if_neg hw))
  | wmClassChanged w i c =>
    exact not_agree_trackedWindowChanged (hs.frame (sameLists_setWindow s w _)) hnot (h _ rfl)
  | gtkApplicationIdChanged w id =>
    exact not_agree_trackedWindowChanged (hs.frame (sameLists_setWindow s w _)) hnot (h _ rfl)
  | retrack w => exact not_agree_trackedWindowChanged hs hnot (h _ rfl)
  | _ => exact hnot trivial

/-- **Membership.** In a run of the tracker, whatever the windows and the applications are, the
lists and the table agree after every step if and only if each window is resolved when it is
tracked. -/
theorem agree_run_iff (window : WindowId → Window) (transients : Transients)
    (appSystem : AppSystem) (es : List Event) :
    Runs.Allowed step AgreeAfter (State.new window transients appSystem) es ↔
      Runs.Allowed step Kept (State.new window transients appSystem) es := by
  have hiff : ∀ s e, s.Inv → (AgreeAfter s e ↔ Kept s e) := fun s e hs =>
    ⟨kept_of_agreeAfter hs, fun hkept t ht => (inv_step hs hkept ht).toAgree⟩
  refine Runs.Allowed.congr (inv_new window transients appSystem) hiff ?_
  intro s e t hs hok hstep
  exact inv_step hs ((hiff s e hs).mp hok) hstep

/-! ## A transient window before its parent -/

def plainWindow (_ : WindowId) : Window where
  sandboxedAppId := none
  startupId := none
  pid := 0
  isRemote := false
  isNormal := true
  isOverrideRedirect := false
  group := []
  wmClassInstance := none
  wmClass := none
  gtkApplicationId := none
  isMapped := true
  isSkipTaskbar := false

def dialogOfZero : Transients where
  chain w := if w = 1 then [0] else []
  tail w p ps h := by
    split at h
    · cases h
      rfl
    · cases h

def noApps : AppSystem where
  appId _ := ""
  lookupApp _ := none
  lookupStartupWmclass _ := none
  lookupDesktopWmclass _ := none
  startupSequences := []
  sortRunning as := as
  mem_sortRunning _ _ := Iff.rfl

example : Runs.Allowed step Kept (State.new plainWindow dialogOfZero noApps)
    [.created 0, .created 1, .unmanaged 1, .unmanaged 0] := by
  decide

/-- The dialog is created first, and an application is made for window 0, which is not tracked.
When window 0 is tracked another application is made for it; the first one still lists it after it
was unmanaged. -/
theorem not_agree_dialog_first : ¬ ∀ window transients appSystem t,
      Runs.Reachable step (State.new window transients appSystem) t → t.Agree := by
  intro h
  obtain ⟨t, hrun, hlisted, hgone⟩ : ∃ t, Runs.run step (State.new plainWindow dialogOfZero noApps)
      [.created 1, .created 0, .unmanaged 0] = some t ∧
      0 ∈ (t.app (.windowBacked 0)).windows ∧ 0 ∉ t.managed :=
    ⟨_, rfl, by decide, by decide⟩
  have hagree := h plainWindow dialogOfZero noApps t (Runs.Reachable.of_run _ hrun)
  exact hgone (hagree.managed _ 0 hlisted)

end WindowTracker
