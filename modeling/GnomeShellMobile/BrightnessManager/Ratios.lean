import Mathlib.Data.Rat.Floor
import GnomeShellMobile.BrightnessManager.GlobalScale

/-!
# BrightnessManager — the ratios of the monitor scales

When the user changes a monitor scale, the factors of all scales are set. Changes of the global scale
keep to them, whatever the backlights make of their brightness.

* **`InRatio`**: the scales are the global scale times their factors, and no backlight is taken for a
  change.
* **`inRatio_run`**: this lasts from a change of a monitor scale on.
-/

namespace BrightnessManager

open MonitorBrightnessScale

namespace State

variable {put : ℚ → ℚ} {s : State} {fs : List ℚ}

def factors (s : State) : List ℚ := s.monitorScales.map (·.scaleFactor)

/-- The monitor scales are the global scale times the factors `fs`. What the backlights were set to comes
back neither in the `_sync` of a change of the global scale nor in one that they cause. -/
structure InRatio (put : ℚ → ℚ) (fs : List ℚ) (s : State) : Prop where
  factors : s.factors = fs
  value : ∃ g, s.globalScale = some g ∧ s.values = fs.map (g.value * ·)
  unread : ∀ g c, (s.changeGlobalScale g c).syncWithBacklights = s.changeGlobalScale g c
  again : ∀ show_, s.sync put show_ = s

theorem Steady.unread (h : s.Steady put) {s' : State} (hm : s'.monitorScales = s.monitorScales) :
    s'.syncWithBacklights = s' :=
  syncWithBacklights_of_eq fun _ hs => not_backlightChanged_of_lit h.lit (hm ▸ hs)

theorem Steady.unread_changeScale (h : s.Steady put) (i : Nat) (c : Change) :
    (s.changeScale i c).syncWithBacklights = s.changeScale i c := by
  refine syncWithBacklights_of_eq fun scale hs => ?_
  rcases mem_of_mem_modify hs with hs | ⟨t, ht, rfl⟩
  · exact not_backlightChanged_of_lit h.lit hs
  · have hsame := not_backlightChanged_of_lit h.lit ht
    exact hsame

theorem setBacklights_factors (s : State) : (s.setBacklights put).factors = s.factors := by
  simp [factors, setBacklights, setBacklight, Function.comp_def]

theorem Steady.inRatio (h : s.Steady put) {g : BrightnessScale} (hfactors : s.factors = fs)
    (hg : s.globalScale = some g) (hvalue : s.values = fs.map (g.value * ·)) :
    s.InRatio put fs where
  factors := hfactors
  value := ⟨g, hg, hvalue⟩
  unread _ _ := h.unread rfl
  again := sync_of_steady h

theorem syncScales_factors_of_changed (g : BrightnessScale) (show_ : Bool)
    (hchanged : s.changedScales ≠ []) (hmax : ratioFloor < maxOf s.values) :
    (s.syncScales g show_).factors = s.values.map (· / maxOf s.values) := by
  rw [factors, State.syncScales, if_pos hchanged, (showOSD_fields _ _ _).2.1, State.followScales]
  show List.map _ (if ratioFloor < maxOf s.values then _ else _) = _
  rw [if_pos hmax]
  simp [State.resetChanged, updateScaleFactor, maxValue_eq, values, Function.comp_def]

theorem syncScales_of_global {g : BrightnessScale} (show_ : Bool) (hb : s.Bounded)
    (hg : s.globalScale = some g) (hscales : s.changedScales = [])
    (hglobal : s.globalScaleChanged = true) :
    (s.syncScales g show_).values = s.factors.map (g.value * ·) ∧
      (s.syncScales g show_).globalScale = some g ∧ (s.syncScales g show_).factors = s.factors := by
  simp only [State.syncScales, hscales, ne_eq, not_true_eq_false, if_false, hglobal, if_true]
  refine ⟨?_, ?_, ?_⟩
  · rw [values, (showOSD_fields _ _ _).2.1, factors, List.map_map]
    show (s.monitorScales.map (·.syncWithScale g)).map _ = _
    rw [List.map_map]
    exact List.map_congr_left fun scale hs => hb.syncWithScale_value hg hs
  · rw [(showOSD_fields _ _ _).1]
    exact hg
  · rw [factors, (showOSD_fields _ _ _).2.1]
    show (s.monitorScales.map (·.syncWithScale g)).map _ = _
    rw [List.map_map]
    rfl

theorem map_div_mul {xs : List ℚ} {max : ℚ} (hmax : max ≠ 0) :
    (xs.map (· / max)).map (max * ·) = xs := by
  rw [List.map_map]
  exact map_eq_self fun x _ => mul_div_cancel₀ x hmax

theorem Steady.inRatio_changeScale (h : s.Steady put) {i : Nat} {c : Change}
    (hi : i < s.monitorScales.length)
    (hmax : ratioFloor < maxOf ((s.changeScale i c).sync put true).values) :
    ((s.changeScale i c).sync put true).InRatio put
      (((s.changeScale i c).sync put true).values.map
        (· / maxOf ((s.changeScale i c).sync put true).values)) := by
  have hready := h.changeScale i c
  have hchanged := changeScale_changed hi c
  have hne := changedScales_ne_nil hchanged
  obtain ⟨g, hg⟩ := Option.ne_none_iff_exists'.mp (mt hready.bounded.scales.mp hne)
  have hsync : (s.changeScale i c).sync put true = _ := sync_some hg true
  rw [h.unread_changeScale] at hsync
  have hvalues : ((s.changeScale i c).sync put true).values = (s.changeScale i c).values := by
    rw [hsync, setBacklights_values]
    exact syncScales_values_of_changed g true hchanged
  rw [hvalues] at hmax ⊢
  have hpos : 0 < maxOf (s.changeScale i c).values := lt_trans (by norm_num [ratioFloor]) hmax
  have hglobal := syncScales_globalScale_of_changed hready.bounded g true hchanged
  have hfactors := syncScales_factors_of_changed g true hchanged hmax
  refine (hready.sync true).inRatio (g := { g with value := maxOf (s.changeScale i c).values }) ?_ ?_ ?_
  · rw [hsync, setBacklights_factors]
    exact hfactors
  · rw [hsync]
    exact hglobal
  · rw [hvalues]
    exact (map_div_mul hpos.ne').symm

theorem Steady.inRatio_changeGlobalScale (h : s.Steady put) {g : BrightnessScale}
    (hg : s.globalScale = some g) (hfactors : s.factors = fs) (c : Change) :
    ((s.changeGlobalScale g c).sync put true).InRatio put fs := by
  have hready := h.changeGlobalScale hg c
  have hunchanged : (s.changeGlobalScale g c).changedScales = [] :=
    changedScales_of_unchanged h.unchanged.scales
  have hunread : (s.changeGlobalScale g c).syncWithBacklights = s.changeGlobalScale g c :=
    h.unread rfl
  have hsync : (s.changeGlobalScale g c).sync put true = _ := sync_some rfl true
  rw [hunread] at hsync
  obtain ⟨hvalues, hglobal, hsame⟩ := syncScales_of_global true hready.bounded rfl hunchanged rfl
  refine (hready.sync true).inRatio ?_ (g := g.setValue (g.changed c)) ?_ ?_
  · rw [hsync, setBacklights_factors, hsame]
    exact hfactors
  · rw [hsync]
    exact hglobal
  · rw [hsync, setBacklights_values, hvalues]
    rw [← hfactors]
    rfl

end State

section Runs

variable {put : ℚ → ℚ}

/-- **The run lemma.** Changes of the global scale can always be made, and the scales keep to their
factors. Induction on the changes. -/
theorem inRatio_run_globalScale {s : State} {fs : List ℚ} (hs : s.Steady put) (h : s.InRatio put fs)
    (cs : List Change) :
    ∃ t, Runs.run (step put) s (cs.map .globalScale) = some t ∧ t.InRatio put fs := by
  induction cs generalizing s with
  | nil => exact ⟨s, rfl, h⟩
  | cons c cs ih =>
    obtain ⟨g, hg, -⟩ := h.value
    have hstep : step put s (.globalScale c) = some ((s.changeGlobalScale g c).sync put true) := by
      simp [step, hg]
    rw [List.map_cons, Runs.run_cons, hstep]
    exact ih (steady_step hs hstep) (hs.inRatio_changeGlobalScale hg h.factors c)

/-- **The ratios last.** After any run a monitor scale is changed, and the maximum of the scales
exceeds the floor. The values in relation to the maximum are the factors from then on: after any
changes of the global scale, each monitor scale is the global scale times its factor, and none of the
`_sync`s on the way took the brightness of a backlight for a change. -/
theorem inRatio_run {dimmingTarget : ℚ} {es : List Event} {s s₁ : State} {i : Nat} {c : Change}
    (hrun : Runs.run (step put) (State.new dimmingTarget) es = some s)
    (hstep : step put s (.monitorScale i c) = some s₁) (hmax : ratioFloor < maxOf s₁.values)
    (cs : List Change) : (s.changeScale i c).syncWithBacklights = s.changeScale i c ∧
      ∃ t, Runs.run (step put) s₁ (cs.map .globalScale) = some t ∧
        t.InRatio put (s₁.values.map (· / maxOf s₁.values)) := by
  have hs : s.Steady put := (Runs.Reachable.of_run es hrun).invariant (State.steady_new dimmingTarget)
    fun _ _ _ hu _ => steady_step hu
  refine ⟨hs.unread_changeScale i c, ?_⟩
  have hs₁ := steady_step hs hstep
  simp only [step, Option.ite_none_right_eq_some, Option.some.injEq] at hstep
  obtain ⟨hi, rfl⟩ := hstep
  exact inRatio_run_globalScale hs₁ (hs.inRatio_changeScale hi hmax) cs

end Runs

def twoMonitors : State :=
  let monitors : List LogicalMonitor :=
    [⟨0, [⟨100, 0, 100, by decide⟩]⟩, ⟨1, [⟨7, 0, 7, by decide⟩]⟩]
  ((State.new (3 / 10)).setMonitors monitors).sync (fun x => x.floor) false

def halfBrightness : State := (twoMonitors.changeScale 0 (.setValue (1 / 2))).sync (fun x => x.floor) true

/-- Then the second monitor is set to one third: it stays at two thirds of the first, also after both
have been dark. -/
theorem inRatio_run_dark : ∃ t, Runs.run (step fun x => x.floor)
        ((halfBrightness.changeScale 1 (.setValue (1 / 3))).sync (fun x => x.floor) true)
        ([Change.setValue 0, .stepUp, .cycleUp].map .globalScale) = some t ∧
      t.InRatio (fun x => x.floor) [1, 2 / 3] := by
  have hzero : 0 < twoMonitors.monitorScales.length := by decide +kernel
  have hone : 1 < halfBrightness.monitorScales.length := by decide +kernel
  have hrun : Runs.run (step fun x => x.floor) (State.new (3 / 10))
      [.monitorsChanged [⟨0, [⟨100, 0, 100, by decide⟩]⟩, ⟨1, [⟨7, 0, 7, by decide⟩]⟩],
        .monitorScale 0 (.setValue (1 / 2))] = some halfBrightness :=
    Option.bind_eq_some_iff.mpr ⟨twoMonitors, rfl,
      Option.bind_eq_some_iff.mpr ⟨halfBrightness, if_pos hzero, rfl⟩⟩
  have h := (inRatio_run (i := 1) (c := .setValue (1 / 3)) hrun (if_pos hone) (by decide +kernel)
    [.setValue 0, .stepUp, .cycleUp]).2
  have hfactors : (((halfBrightness.changeScale 1 (.setValue (1 / 3))).sync (fun x => x.floor)
      true).values.map (· / maxOf ((halfBrightness.changeScale 1 (.setValue (1 / 3))).sync
        (fun x => x.floor) true).values)) = [1, 2 / 3] := by decide +kernel
  rwa [hfactors] at h

end BrightnessManager
