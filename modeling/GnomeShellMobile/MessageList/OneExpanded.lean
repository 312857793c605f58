import GnomeShellMobile.MessageList.Expanding
import Mathlib.Data.List.Basic

/-!
# MessageList — one group is expanded

* `Consistent`: what is claimed of the view once nothing is pending.
* `Phase`, `Sound`: at most one call has not done its work, and what the view looks like meanwhile.
* `sound_expand`, `sound_collapse`: the two halves of a call.
* `Careful`: no other group is asked for while a call has work left to do, no animation is
  interrupted, and no group goes while it is expanded or animated.
* `Sound.step`, `run_expanded`: then the view is consistent whenever nothing is pending.
-/

namespace MessageList.Expanding

open State

variable {s t : State} {g : ℕ}

def Call.queued : Call → Bool
  | .collapsed _ => true
  | _ => false

variable (s)

def State.Settled : Prop :=
  (∀ g ∈ s.groups, (s.group g).easing = false) ∧ (∀ call ∈ s.calls, call.queued = false) ∧
    s.returning = 0
deriving Decidable

structure Consistent : Prop where
  listed : ∀ g, s.expandedGroup = some g → g ∈ s.groups
  flag : ∀ g ∈ s.groups, (s.group g).expandedFlag = true ↔ s.expandedGroup = some g
  overlay : s.overlay = true ↔ s.expandedGroup ≠ none
  calls : s.calls = []

structure Phase (calls : List Call) (eased flagged : Option ℕ) (overlay : Bool) :
    Prop where
  calls : s.calls = calls
  easing : ∀ g ∈ s.groups, (s.group g).easing = true ↔ eased = some g
  flag : ∀ g ∈ s.groups, (s.group g).expandedFlag = true ↔ flagged = some g
  overlay : s.overlay = overlay

structure Sound : Prop where
  listed : ∀ g, s.expandedGroup = some g → g ∈ s.groups
  phase : Phase s [] none s.expandedGroup s.expandedGroup.isSome ∨
    (∃ p ∈ s.groups, s.expandedGroup ≠ some p ∧
      Phase s [.collapsing p s.expandedGroup] (some p) none true) ∨
    Phase s [.collapsed s.expandedGroup] none none true ∨
    ∃ g, s.expandedGroup = some g ∧ Phase s [.expanding g] (some g) (some g) true

variable {s}

theorem Sound.new : Sound State.new := by
  refine ⟨fun g h => (by cases h), .inl ⟨rfl, ?_, ?_, rfl⟩⟩
  · simp [State.new]
  · simp [State.new]

theorem Sound.consistent (h : Sound s) (hsettled : s.Settled) : Consistent s := by
  obtain ⟨heasing, hjobs, -⟩ := hsettled
  have hquiet : ∀ g ∈ s.groups, (s.group g).easing ≠ true := fun g hg => by simp [heasing g hg]
  obtain hp | ⟨p, hp, -, hphase⟩ | hp | ⟨g, hg, hphase⟩ := h.phase
  · refine ⟨h.listed, hp.flag, ?_, hp.calls⟩
    rw [hp.overlay, Option.isSome_iff_ne_none]
  · exact absurd ((hphase.easing p hp).mpr rfl) (hquiet p hp)
  · have hmem : .collapsed s.expandedGroup ∈ s.calls := by simp [hp.calls]
    cases hjobs _ hmem
  · have hmem := h.listed g hg
    exact absurd ((hphase.easing g hmem).mpr rfl) (hquiet g hmem)

/-! ## Steps that leave the calls alone -/

/-- The groups of `t` have the flags they have in `s`, and new ones have none. -/
structure Alike (s t : State) : Prop where
  calls : t.calls = s.calls
  overlay : t.overlay = s.overlay
  expandedGroup : t.expandedGroup = s.expandedGroup
  old : ∀ g ∈ t.groups, g ∈ s.groups → (t.group g).easing = (s.group g).easing ∧
    (t.group g).expandedFlag = (s.group g).expandedFlag
  fresh : ∀ g ∈ t.groups, g ∉ s.groups → (t.group g).easing = false ∧
    (t.group g).expandedFlag = false

theorem Phase.alike {calls : List Call} {eased flagged : Option ℕ} {overlay : Bool}
    (h : Phase s calls eased flagged overlay) (halike : Alike s t)
    (heased : ∀ g, eased = some g → g ∈ s.groups) (hflagged : ∀ g, flagged = some g → g ∈ s.groups) :
    Phase t calls eased flagged overlay := by
  refine ⟨halike.calls.trans h.calls, fun g hg => ?_, fun g hg => ?_, halike.overlay.trans h.overlay⟩
  · by_cases hs : g ∈ s.groups
    · rw [(halike.old g hg hs).1]
      exact h.easing g hs
    · rw [(halike.fresh g hg hs).1]
      exact iff_of_false Bool.false_ne_true fun h => hs (heased g h)
  · by_cases hs : g ∈ s.groups
    · rw [(halike.old g hg hs).2]
      exact h.flag g hs
    · rw [(halike.fresh g hg hs).2]
      exact iff_of_false Bool.false_ne_true fun h => hs (hflagged g h)

theorem Sound.alike (h : Sound s) (halike : Alike s t)
    (hkeeps : ∀ g ∈ s.groups, s.expandedGroup = some g ∨ (s.group g).easing = true → g ∈ t.groups) :
    Sound t := by
  refine ⟨fun g hg => ?_, ?_⟩
  · rw [halike.expandedGroup] at hg
    exact hkeeps g (h.listed g hg) (.inl hg)
  · rw [halike.expandedGroup]
    obtain hp | ⟨p, hp, hne, hphase⟩ | hp | ⟨g, hg, hphase⟩ := h.phase
    · exact .inl (hp.alike halike (fun g h => by cases h) h.listed)
    · refine .inr (.inl ⟨p, hkeeps p hp (.inr ((hphase.easing p hp).mpr rfl)), hne, ?_⟩)
      refine hphase.alike halike (fun g h => ?_) fun g h => by cases h
      exact Option.some.inj h ▸ hp
    · exact .inr (.inr (.inl (hp.alike halike (fun g h => by cases h) fun g h => by cases h)))
    · refine .inr (.inr (.inr ⟨g, hg, hphase.alike halike (fun g' h' => ?_) fun g' h' => ?_⟩))
      · exact Option.some.inj h' ▸ h.listed g hg
      · exact Option.some.inj h' ▸ h.listed g hg

theorem Alike.setGroup (s : State) {g : ℕ} {group : Group}
    (heasing : group.easing = (s.group g).easing)
    (hflag : group.expandedFlag = (s.group g).expandedFlag) : Alike s (s.setGroup g group) := by
  refine ⟨rfl, rfl, rfl, fun g' _ _ => ?_, fun g' h h' => absurd h h'⟩
  by_cases hg : g' = g
  · subst hg
    simp [State.setGroup, heasing, hflag]
  · simp [State.setGroup, hg]

/-! ## The two halves of a call -/

theorem expand_mapped (hflag : (s.group g).expandedFlag = false) (hcalls : s.calls = [])
    (hmapped : (s.group g).mapped = true) : s.expand g =
      { s.setGroup g { s.group g with expandedFlag := true, easing := true } with
        calls := [.expanding g] } := by
  simp [State.expand, easeExpansion, dropEasing, State.setGroup, hflag, hcalls, hmapped]

theorem expand_unmapped (hflag : (s.group g).expandedFlag = false) (hcalls : s.calls = [])
    (hmapped : (s.group g).mapped = false) : s.expand g =
      { s.setGroup g { s.group g with expandedFlag := true, easing := false } with
        calls := []
        returning := s.returning + 1 } := by
  simp [State.expand, easeExpansion, dropEasing, State.setGroup, hflag, hcalls, hmapped]

theorem collapse_mapped {group : Option ℕ} (hmem : g ∈ s.groups)
    (hflag : (s.group g).expandedFlag = true) (hcalls : s.calls = [])
    (hmapped : (s.group g).mapped = true) : s.collapse g group =
      { s.setGroup g { s.group g with expandedFlag := false, easing := true } with
        calls := [.collapsing g group] } := by
  simp [State.collapse, easeExpansion, dropEasing, State.setGroup, hmem, hflag, hcalls, hmapped]

theorem collapse_unmapped {group : Option ℕ} (hmem : g ∈ s.groups)
    (hflag : (s.group g).expandedFlag = true) (hcalls : s.calls = [])
    (hmapped : (s.group g).mapped = false) : s.collapse g group =
      { s.setGroup g { s.group g with expandedFlag := false, easing := false } with
        calls := [.collapsed group] } := by
  simp [State.collapse, easeExpansion, dropEasing, State.setGroup, hmem, hflag, hcalls, hmapped]

theorem phase_setGroup (calls : List Call) (easing flag : Bool) (n : ℕ)
    (heasing : ∀ g' ∈ s.groups, g' ≠ g → (s.group g').easing = false)
    (hflags : ∀ g' ∈ s.groups, g' ≠ g → (s.group g').expandedFlag = false)
    (hoverlay : s.overlay = true) :
    Phase { s.setGroup g { s.group g with expandedFlag := flag, easing := easing } with
        calls := calls, returning := n }
      calls (if easing then some g else none) (if flag then some g else none) true := by
  refine ⟨rfl, fun g' hg' => ?_, fun g' hg' => ?_, hoverlay⟩
  · by_cases hg : g' = g
    · subst hg
      cases easing <;> simp [State.setGroup]
    · have hquiet := heasing g' hg' hg
      cases easing <;> simp [State.setGroup, hg, hquiet, Ne.symm hg]
  · by_cases hg : g' = g
    · subst hg
      cases flag <;> simp [State.setGroup]
    · have hquiet := hflags g' hg' hg
      cases flag <;> simp [State.setGroup, hg, hquiet, Ne.symm hg]

theorem sound_expand (hmem : g ∈ s.groups) (hexp : s.expandedGroup = some g)
    (h : Phase s [] none none true) : Sound (s.expand g) := by
  have hflags : ∀ g' ∈ s.groups, (s.group g').expandedFlag = false := fun g' hg' => by
    simpa using (h.flag g' hg').not
  have heasing : ∀ g' ∈ s.groups, (s.group g').easing = false := fun g' hg' => by
    simpa using (h.easing g' hg').not
  have hlisted : ∀ g', s.expandedGroup = some g' → g' ∈ s.groups := by
    intro g' hg'
    obtain rfl := Option.some.inj (hexp.symm.trans hg')
    exact hmem
  have hphase : ∀ (calls : List Call) (easing : Bool) (n : ℕ), Phase
      { s.setGroup g { s.group g with expandedFlag := true, easing := easing } with
        calls := calls, returning := n } calls (if easing then some g else none) (some g) true :=
    fun calls easing n => phase_setGroup calls easing true n (fun g' hg' _ => heasing g' hg')
      (fun g' hg' _ => hflags g' hg') h.overlay
  cases hmapped : (s.group g).mapped with
  | true =>
    rw [expand_mapped (hflags g hmem) h.calls hmapped]
    exact ⟨hlisted, .inr (.inr (.inr ⟨g, hexp, hphase [.expanding g] true s.returning⟩))⟩
  | false =>
    rw [expand_unmapped (hflags g hmem) h.calls hmapped]
    refine ⟨hlisted, .inl ?_⟩
    have hrests := hphase [] false (s.returning + 1)
    rw [← hexp] at hrests
    refine ⟨hrests.calls, hrests.easing, hrests.flag, hrests.overlay.trans ?_⟩
    show true = s.expandedGroup.isSome
    rw [hexp]
    rfl

theorem sound_showGroup (hlisted : ∀ g, s.expandedGroup = some g → g ∈ s.groups)
    (h : Phase s [] none none true) : Sound (s.showGroup s.expandedGroup) := by
  cases hexp : s.expandedGroup with
  | none =>
    refine ⟨fun g hg => hlisted g hg, .inl ⟨h.calls, h.easing, fun g hg => ?_, ?_⟩⟩
    · refine (h.flag g hg).trans (iff_of_false (by simp) ?_)
      show s.expandedGroup ≠ some g
      rw [hexp]
      simp
    · show false = s.expandedGroup.isSome
      rw [hexp]
      rfl
  | some g =>
    have hmem := hlisted g hexp
    rw [State.showGroup, if_pos hmem]
    exact sound_expand (s := { s with overlay := true }) hmem hexp
      ⟨h.calls, h.easing, h.flag, rfl⟩

theorem sound_collapse {group : Option ℕ} (hmem : g ∈ s.groups) (hexp : s.expandedGroup = group)
    (hlisted : ∀ g, group = some g → g ∈ s.groups) (hother : group ≠ some g)
    (h : Phase s [] none (some g) true) : Sound (s.collapse g group) := by
  subst hexp
  have heasing : ∀ g' ∈ s.groups, g' ≠ g → (s.group g').easing = false := fun g' hg' _ => by
    simpa using (h.easing g' hg').not
  have hflags : ∀ g' ∈ s.groups, g' ≠ g → (s.group g').expandedFlag = false := by
    intro g' hg' hne
    have hnot := (h.flag g' hg').not.mpr fun heq => hne (Option.some.inj heq).symm
    simpa using hnot
  have hflag := (h.flag g hmem).mpr rfl
  have hphase := fun calls easing =>
    phase_setGroup calls easing false s.returning heasing hflags h.overlay
  cases hmapped : (s.group g).mapped with
  | true =>
    rw [collapse_mapped hmem hflag h.calls hmapped]
    exact ⟨hlisted, .inr (.inl ⟨g, hmem, hother, hphase _ true⟩)⟩
  | false =>
    rw [collapse_unmapped hmem hflag h.calls hmapped]
    exact ⟨hlisted, .inr (.inr (.inl (hphase _ false)))⟩

theorem Sound.rests (h : Sound s) (hcalls : s.calls = []) :
    Phase s [] none s.expandedGroup s.expandedGroup.isSome := by
  obtain hp | ⟨p, -, -, hphase⟩ | hp | ⟨g, -, hphase⟩ := h.phase
  · exact hp
  · exact absurd (hphase.calls.symm.trans hcalls) (List.cons_ne_nil _ _)
  · exact absurd (hp.calls.symm.trans hcalls) (List.cons_ne_nil _ _)
  · exact absurd (hphase.calls.symm.trans hcalls) (List.cons_ne_nil _ _)

/-- Asking for `group` changes nothing, or finds no call with work left. -/
def Asks (s : State) (group : Option ℕ) : Prop := s.expandedGroup = group ∨ s.calls = []
deriving Decidable

theorem Sound.setExpandedGroup {group : Option ℕ} (h : Sound s) (hasks : Asks s group)
    (hlisted : ∀ g, group = some g → g ∈ s.groups) : Sound (s.setExpandedGroup group) := by
  unfold State.setExpandedGroup
  by_cases hsame : s.expandedGroup = group
  · rw [if_pos hsame]
    exact h
  rw [if_neg hsame]
  have hrests := h.rests (hasks.resolve_left hsame)
  cases hexp : s.expandedGroup with
  | none =>
    rw [hexp] at hrests hsame
    cases group with
    | none => exact absurd rfl hsame
    | some g =>
      have hmem := hlisted g rfl
      show Sound (State.showGroup { s with expandedGroup := some g } (some g))
      rw [State.showGroup, if_pos hmem]
      exact sound_expand (s := { s with expandedGroup := some g, overlay := true }) hmem rfl
        ⟨hrests.calls, hrests.easing, hrests.flag, rfl⟩
  | some p =>
    rw [hexp] at hrests hsame
    exact sound_collapse (s := { s with expandedGroup := group }) (h.listed p hexp) rfl hlisted
      (Ne.symm hsame) ⟨hrests.calls, hrests.easing, hrests.flag, hrests.overlay⟩

theorem Sound.toggle (h : Sound s) (hmem : g ∈ s.groups)
    (hasks : Asks s (if (s.group g).expanded then none else some g)) : Sound (s.toggle g) := by
  refine h.setExpandedGroup hasks fun g' hg' => ?_
  split at hg'
  · cases hg'
  · exact Option.some.inj hg' ▸ hmem

/-! ## Careful steps -/

def LetsGo (s : State) (g : ℕ) : Prop := s.expandedGroup ≠ some g ∧ (s.group g).easing = false
deriving Decidable

/-- No other group is asked for while a call has work left, not even when a group is left with one
message; no expand or collapse animation is interrupted; and no group goes that is expanded or
animated. -/
def Careful (s : State) : Event → Prop
  | .toggle g => Asks s (if (s.group g).expanded then none else some g)
  | .collapse => Asks s none
  | .removeNotification g => (s.group g).mapped = false → (s.group g).size = 2 → Asks s none
  | .notificationRemoved g => (s.group g).size = 2 → Asks s none
  | .removeNotificationSource g => (s.group g).mapped = false → LetsGo s g
  | .groupRemoved g => LetsGo s g
  | .interrupt _ => False
  | _ => True

instance Careful.decidable (s : State) (e : Event) : Decidable (Careful s e) := by
  unfold Careful
  split <;> infer_instance

theorem Sound.notificationRemoved (h : Sound s) (hmem : g ∈ s.groups)
    (hasks : (s.group g).size = 2 → Asks s none) : Sound (s.notificationRemoved g) := by
  have hless : Sound (s.setGroup g { s.group g with size := (s.group g).size - 1 }) :=
    h.alike (Alike.setGroup s rfl rfl) fun _ hg _ => hg
  unfold State.notificationRemoved
  dsimp only
  split
  · next hone =>
    -- a group with one message counts as expanded, so that none is asked for
    have hsize : (s.group g).size = 2 := by
      simp only [State.setGroup, Function.update_self] at hone
      omega
    refine hless.toggle hmem ?_
    have hexpanded : ((s.setGroup g { s.group g with size := (s.group g).size - 1 }).group g).expanded =
        true := by
      rw [Group.expanded, hone]
      exact Bool.or_true _
    rw [if_pos hexpanded]
    exact hasks hsize
  · exact hless

theorem Sound.complete (h : Sound s) (hmem : g ∈ s.groups) (heasing : (s.group g).easing = true) :
    Sound (s.complete g) := by
  have hquiet : ∀ eased : Option ℕ, eased = some g →
      (∀ g' ∈ s.groups, (s.group g').easing = true ↔ eased = some g') →
      ∀ g' ∈ s.groups, ((s.complete g).group g').easing = true ↔ none = some g' := by
    intro eased heased h g' hg'
    by_cases hg : g' = g
    · subst hg
      simp [State.complete, State.setGroup]
    · have := h g' hg'
      rw [heased] at this
      simp [State.complete, State.setGroup, hg, this, Ne.symm hg]
  have hflag : ∀ g', ((s.complete g).group g').expandedFlag = (s.group g').expandedFlag := by
    intro g'
    by_cases hg : g' = g
    · subst hg
      simp [State.complete, State.setGroup]
    · simp [State.complete, State.setGroup, hg]
  obtain hp | ⟨p, hp, hne, hphase⟩ | hp | ⟨g', hg', hphase⟩ := h.phase
  · exact absurd ((hp.easing g hmem).mp heasing) (by simp)
  · have heased := (hphase.easing g hmem).mp heasing
    obtain rfl := Option.some.inj heased
    refine ⟨h.listed, .inr (.inr (.inl ⟨?_, hquiet _ rfl hphase.easing, ?_, hphase.overlay⟩))⟩
    · simp [State.complete, hphase.calls, Call.complete]
      rfl
    · intro g' hg'
      rw [hflag]
      exact hphase.flag g' hg'
  · exact absurd ((hp.easing g hmem).mp heasing) (by simp)
  · have heased := (hphase.easing g hmem).mp heasing
    obtain rfl := Option.some.inj heased
    refine ⟨h.listed, .inl ⟨?_, hquiet _ rfl hphase.easing, ?_, ?_⟩⟩
    · simp [State.complete, hphase.calls]
    · intro g'' hg''
      rw [hflag]
      exact (hphase.flag g'' hg'').trans (by rw [← hg']; rfl)
    · refine hphase.overlay.trans ?_
      show true = s.expandedGroup.isSome
      rw [hg']
      rfl

theorem Sound.groupRemoved (h : Sound s) (hgoes : LetsGo s g) (hmem : g ∈ s.groups) :
    Sound (s.groupRemoved g) := by
  -- no call waits for its animation
  have hcalls : s.calls.map (Call.drop g) = s.calls := by
    obtain hp | ⟨p, hp, -, hphase⟩ | hp | ⟨g', hg', hphase⟩ := h.phase
    · simp [hp.calls]
    · have hne : p ≠ g := by
        rintro rfl
        have heasing := (hphase.easing p hp).mpr rfl
        rw [hgoes.2] at heasing
        cases heasing
      simp [hphase.calls, Call.drop, hne]
    · simp [hp.calls, Call.drop]
    · have hne : g' ≠ g := by
        rintro rfl
        exact hgoes.1 hg'
      simp [hphase.calls, Call.drop, hne]
  have hother : ∀ g' ∈ (s.groupRemoved g).groups, g' ∈ s.groups ∧ g' ≠ g := fun g' hg' => by
    simpa [State.groupRemoved] using hg'
  refine h.alike ⟨hcalls, rfl, rfl, fun g' hg' _ => ?_, fun g' hg' hnew => ?_⟩ fun g' hg' hneeded => ?_
  · have hne := (hother g' hg').2
    simp [State.groupRemoved, dropEasing, State.setGroup, hne]
  · exact absurd (hother g' hg').1 hnew
  · have hne : g' ≠ g := by
      rintro rfl
      obtain hexp | heasing := hneeded
      · exact hgoes.1 hexp
      · rw [hgoes.2] at heasing
        cases heasing
    simp [State.groupRemoved, hg', hne]

/-! ## Which groups there are -/

def SameGroups (s t : State) : Prop := t.groups = s.groups ∧ t.created = s.created

variable (s)

theorem sameGroups_easeExpansion (g : ℕ) (awaits : Call) {done : State → State}
    (hdone : ∀ s, SameGroups s (done s)) : SameGroups s (s.easeExpansion g awaits done) := by
  unfold easeExpansion
  dsimp only
  split
  · exact ⟨rfl, rfl⟩
  · exact hdone _

theorem sameGroups_expand (g : ℕ) : SameGroups s (s.expand g) := by
  unfold State.expand
  split
  · exact ⟨rfl, rfl⟩
  · exact sameGroups_easeExpansion (s.setGroup g _) g _ fun s => ⟨rfl, rfl⟩

theorem sameGroups_showGroup (group : Option ℕ) : SameGroups s (s.showGroup group) := by
  cases group with
  | none => exact ⟨rfl, rfl⟩
  | some g =>
    simp only [State.showGroup]
    split
    · exact sameGroups_expand { s with overlay := true } g
    · exact ⟨rfl, rfl⟩

theorem sameGroups_collapse (g : ℕ) (group : Option ℕ) :
    SameGroups s (s.collapse g group) := by
  unfold State.collapse
  split
  · exact ⟨rfl, rfl⟩
  · split
    · exact sameGroups_easeExpansion (s.setGroup g _) g _ fun s => ⟨rfl, rfl⟩
    · exact ⟨rfl, rfl⟩

theorem sameGroups_setExpandedGroup (group : Option ℕ) :
    SameGroups s (s.setExpandedGroup group) := by
  unfold State.setExpandedGroup
  split
  · exact ⟨rfl, rfl⟩
  · split
    · exact sameGroups_showGroup { s with expandedGroup := group } group
    · exact sameGroups_collapse { s with expandedGroup := group } _ group

theorem sameGroups_notificationRemoved (g : ℕ) :
    SameGroups s (s.notificationRemoved g) := by
  unfold State.notificationRemoved
  dsimp only
  split
  · exact sameGroups_setExpandedGroup (s.setGroup g _) _
  · exact ⟨rfl, rfl⟩

def Fresh : Prop := ∀ g ∈ s.groups, g < s.created

variable {s}

theorem Fresh.sameGroups (h : Fresh s) (hsame : SameGroups s t) : Fresh t := by
  intro g hg
  rw [hsame.1] at hg
  rw [hsame.2]
  exact h g hg

theorem Fresh.groupRemoved (h : Fresh s) (g : ℕ) : Fresh (s.groupRemoved g) :=
  fun g' hg' => h g' (List.mem_filter.mp hg').1

theorem Fresh.step {e : Event} (h : Fresh s) (hstep : step s e = some t) : Fresh t := by
  cases e with
  | addNotificationSource size mapped =>
    obtain rfl := Option.some.inj hstep
    intro g hg
    show g < s.created + 1
    obtain rfl | hg := List.mem_cons.mp hg
    · omega
    · have := h g hg
      omega
  | addNotification g =>
    obtain ⟨-, heq⟩ := Option.ite_none_right_eq_some.mp hstep
    obtain rfl := Option.some.inj heq
    exact h.sameGroups ⟨rfl, rfl⟩
  | removeNotification g =>
    obtain ⟨-, heq⟩ := Option.ite_none_right_eq_some.mp hstep
    obtain rfl := Option.some.inj heq
    unfold State.removeNotification
    split
    · exact h.sameGroups ⟨rfl, rfl⟩
    · exact h.sameGroups (sameGroups_notificationRemoved s g)
  | notificationRemoved g =>
    obtain ⟨-, heq⟩ := Option.ite_none_right_eq_some.mp hstep
    obtain rfl := Option.some.inj heq
    exact h.sameGroups (sameGroups_notificationRemoved (s.setGroup g _) g)
  | toggle g =>
    obtain ⟨-, heq⟩ := Option.ite_none_right_eq_some.mp hstep
    obtain rfl := Option.some.inj heq
    exact h.sameGroups (sameGroups_setExpandedGroup s _)
  | collapse =>
    obtain rfl := Option.some.inj hstep
    exact h.sameGroups (sameGroups_setExpandedGroup s none)
  | removeNotificationSource g =>
    obtain ⟨-, heq⟩ := Option.ite_none_right_eq_some.mp hstep
    obtain rfl := Option.some.inj heq
    unfold State.removeNotificationSource
    split
    · exact h.sameGroups ⟨rfl, rfl⟩
    · exact h.groupRemoved g
  | groupRemoved g =>
    obtain ⟨-, heq⟩ := Option.ite_none_right_eq_some.mp hstep
    obtain rfl := Option.some.inj heq
    exact h.groupRemoved g
  | map g mapped =>
    obtain ⟨-, heq⟩ := Option.ite_none_right_eq_some.mp hstep
    obtain rfl := Option.some.inj heq
    exact h.sameGroups ⟨rfl, rfl⟩
  | complete g =>
    obtain ⟨-, heq⟩ := Option.ite_none_right_eq_some.mp hstep
    obtain rfl := Option.some.inj heq
    exact h.sameGroups ⟨rfl, rfl⟩
  | interrupt g =>
    obtain ⟨-, heq⟩ := Option.ite_none_right_eq_some.mp hstep
    obtain rfl := Option.some.inj heq
    exact h.sameGroups ⟨rfl, rfl⟩
  | collapsed group =>
    obtain ⟨-, heq⟩ := Option.ite_none_right_eq_some.mp hstep
    obtain rfl := Option.some.inj heq
    exact h.sameGroups (sameGroups_showGroup _ group)
  | «return» =>
    obtain ⟨-, heq⟩ := Option.ite_none_right_eq_some.mp hstep
    obtain rfl := Option.some.inj heq
    exact h.sameGroups ⟨rfl, rfl⟩

/-! ## Runs -/

theorem Sound.step {e : Event} (h : Sound s) (hfresh : Fresh s) (hcareful : Careful s e)
    (hstep : step s e = some t) : Sound t := by
  cases e with
  | addNotificationSource size mapped =>
    obtain rfl := Option.some.inj hstep
    have hnew : s.created ∉ s.groups := fun hmem => absurd (hfresh _ hmem) (Nat.lt_irrefl _)
    refine h.alike ⟨rfl, rfl, rfl, fun g hg hs => ?_, fun g hg hs => ?_⟩ fun g hg _ =>
      List.mem_cons_of_mem _ hg
    · have hne : g ≠ s.created := fun heq => hnew (heq ▸ hs)
      simp [State.addNotificationSource, State.setGroup, hne]
    · obtain rfl := (List.mem_cons.mp hg).resolve_right hs
      simp [State.addNotificationSource, State.setGroup, Group.new]
  | addNotification g =>
    obtain ⟨-, heq⟩ := Option.ite_none_right_eq_some.mp hstep
    obtain rfl := Option.some.inj heq
    exact h.alike (Alike.setGroup s rfl rfl) fun _ hg _ => hg
  | removeNotification g =>
    obtain ⟨hguard, heq⟩ := Option.ite_none_right_eq_some.mp hstep
    obtain rfl := Option.some.inj heq
    unfold State.removeNotification
    split
    · exact h.alike (Alike.setGroup s rfl rfl) fun _ hg _ => hg
    · next hmapped => exact h.notificationRemoved hguard.1 (hcareful (by simpa using hmapped))
  | notificationRemoved g =>
    obtain ⟨hguard, heq⟩ := Option.ite_none_right_eq_some.mp hstep
    obtain rfl := Option.some.inj heq
    have hless : Sound (s.setGroup g { s.group g with removing := (s.group g).removing - 1 }) :=
      h.alike (Alike.setGroup s rfl rfl) fun _ hg _ => hg
    refine hless.notificationRemoved hguard.1 fun hsize => hcareful ?_
    simpa [State.setGroup] using hsize
  | toggle g =>
    obtain ⟨hmem, heq⟩ := Option.ite_none_right_eq_some.mp hstep
    obtain rfl := Option.some.inj heq
    exact h.toggle hmem hcareful
  | collapse =>
    obtain rfl := Option.some.inj hstep
    exact h.setExpandedGroup hcareful fun g hg => by cases hg
  | removeNotificationSource g =>
    obtain ⟨hmem, heq⟩ := Option.ite_none_right_eq_some.mp hstep
    obtain rfl := Option.some.inj heq
    unfold State.removeNotificationSource
    split
    · exact h.alike (Alike.setGroup s rfl rfl) fun _ hg _ => hg
    · next hmapped => exact h.groupRemoved (hcareful (by simpa using hmapped)) hmem
  | groupRemoved g =>
    obtain ⟨hguard, heq⟩ := Option.ite_none_right_eq_some.mp hstep
    obtain rfl := Option.some.inj heq
    exact h.groupRemoved hcareful hguard.1
  | map g mapped =>
    obtain ⟨-, heq⟩ := Option.ite_none_right_eq_some.mp hstep
    obtain rfl := Option.some.inj heq
    exact h.alike (Alike.setGroup s rfl rfl) fun _ hg _ => hg
  | complete g =>
    obtain ⟨hguard, heq⟩ := Option.ite_none_right_eq_some.mp hstep
    obtain rfl := Option.some.inj heq
    exact h.complete hguard.1 hguard.2
  | interrupt g => exact hcareful.elim
  | collapsed group =>
    obtain ⟨hmem, heq⟩ := Option.ite_none_right_eq_some.mp hstep
    obtain rfl := Option.some.inj heq
    -- it is the only call, and goes on for the group that is still asked for
    have hphase : group = s.expandedGroup ∧ Phase s [.collapsed s.expandedGroup] none none true := by
      obtain hp | ⟨p, -, -, hphase⟩ | hp | ⟨g, -, hphase⟩ := h.phase
      · rw [hp.calls] at hmem
        cases hmem
      · rw [hphase.calls] at hmem
        simp at hmem
      · rw [hp.calls] at hmem
        exact ⟨by simpa using hmem, hp⟩
      · rw [hphase.calls] at hmem
        simp at hmem
    obtain ⟨rfl, hp⟩ := hphase
    refine sound_showGroup (s := { s with calls := s.calls.erase (.collapsed s.expandedGroup) })
      h.listed ⟨?_, hp.easing, hp.flag, hp.overlay⟩
    show s.calls.erase (.collapsed s.expandedGroup) = []
    rw [hp.calls]
    simp
  | «return» =>
    obtain ⟨-, heq⟩ := Option.ite_none_right_eq_some.mp hstep
    obtain rfl := Option.some.inj heq
    exact h.alike ⟨rfl, rfl, rfl, fun _ _ _ => ⟨rfl, rfl⟩, fun _ hg hnew => absurd hg hnew⟩
      fun _ hg _ => hg

/-- In every state that careful steps reach, the view is consistent if nothing is pending. -/
theorem run_expanded (hreach : Runs.Reach step Careful State.new s) (hsettled : s.Settled) :
    Consistent s := by
  have hinv := hreach.invariant (I := fun s => Sound s ∧ Fresh s)
    ⟨Sound.new, fun g hg => by cases hg⟩ fun u e v hu hcareful hstep =>
      ⟨hu.1.step hu.2 hcareful hstep, hu.2.step hstep⟩
  exact hinv.1.consistent hsettled

/-- One group is expanded, and then another. -/
theorem run_expanded_switched :
    let es : List Event := [.addNotificationSource 2 true, .addNotificationSource 3 true, .toggle 0,
      .complete 0, .return, .toggle 1, .complete 0, .collapsed (some 1), .complete 1, .return]
    ∃ s, Runs.run step State.new es = some s ∧ s.Settled ∧ Consistent s := by
  intro es
  have hends : (Runs.run step State.new es).map (fun s => decide s.Settled) = some true := by
    decide
  obtain ⟨s, hrun, hsettled⟩ := Option.map_eq_some_iff.mp hends
  have hsettled : s.Settled := of_decide_eq_true hsettled
  refine ⟨s, hrun, hsettled, run_expanded (Runs.Reach.of_run es ?_ hrun) hsettled⟩
  decide

def collapsedEarly : List Event :=
  [.addNotificationSource 2 true, .toggle 0, .toggle 0, .complete 0, .collapsed none]

def collapsedBetween : List Event :=
  [.addNotificationSource 2 true, .addNotificationSource 2 true, .toggle 0, .complete 0, .return,
    .toggle 1, .collapse, .collapsed none, .complete 0, .collapsed (some 1), .complete 1, .return]

def expandedGroupRemoved : List Event :=
  [.addNotificationSource 2 true, .toggle 0, .complete 0, .return, .removeNotificationSource 0,
    .groupRemoved 0]

def RunExpanded (es : List Event) : Prop :=
  ∀ s, Runs.run step State.new es = some s → s.Settled → Consistent s

/-- One leaves a call that waits for good, one the overlay where no group is the expanded one, and
one a group that is not in the list. -/
theorem not_run_expanded : ¬ RunExpanded collapsedEarly ∧ ¬ RunExpanded collapsedBetween ∧
    ¬ RunExpanded expandedGroupRemoved := by
  refine ⟨fun h => ?_, fun h => ?_, fun h => ?_⟩
  · have hends : (Runs.run step State.new collapsedEarly).map
        (fun s => (decide s.Settled, s.calls)) = some (true, [.stuck]) := by decide
    obtain ⟨s, hrun, hstate⟩ := Option.map_eq_some_iff.mp hends
    obtain ⟨hsettled, hcalls⟩ := Prod.mk.inj hstate
    have hnone := (h s hrun (of_decide_eq_true hsettled)).calls
    rw [hcalls] at hnone
    cases hnone
  · have hends : (Runs.run step State.new collapsedBetween).map
        (fun s => (decide s.Settled, s.overlay, s.expandedGroup)) = some (true, true, none) := by
      decide
    obtain ⟨s, hrun, hstate⟩ := Option.map_eq_some_iff.mp hends
    obtain ⟨hsettled, hrest⟩ := Prod.mk.inj hstate
    obtain ⟨hoverlay, hgroup⟩ := Prod.mk.inj hrest
    exact (h s hrun (of_decide_eq_true hsettled)).overlay.mp hoverlay hgroup
  · have hends : (Runs.run step State.new expandedGroupRemoved).map
        (fun s => (decide s.Settled, s.groups, s.expandedGroup)) = some (true, [], some 0) := by
      decide
    obtain ⟨s, hrun, hstate⟩ := Option.map_eq_some_iff.mp hends
    obtain ⟨hsettled, hrest⟩ := Prod.mk.inj hstate
    obtain ⟨hgroups, hgroup⟩ := Prod.mk.inj hrest
    have hlisted := (h s hrun (of_decide_eq_true hsettled)).listed 0 hgroup
    rw [hgroups] at hlisted
    cases hlisted

end MessageList.Expanding
