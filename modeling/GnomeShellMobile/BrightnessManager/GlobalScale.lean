import Mathlib.Algebra.Order.Field.Basic
import Mathlib.Tactic.Linarith
import Mathlib.Tactic.NormNum
import GnomeShellMobile.BrightnessManager.Scales

/-!
# BrightnessManager — the global scale is the maximum of the monitor scales

After every `_sync` another one changes nothing, and the global scale is the maximum of the
monitor scales, except where the system has changed a backlight: `_sync` then gives the monitor
scale its new value without noting that it has changed, and the global scale stays as it was.

* **`Steady`**: what every `_sync` leaves; **`sync_of_steady`**: the next one changes nothing.
* **`followsMax_sync_*`**: the parts of `_sync` and the maximum.
* **`afterSync_run_iff`**: the runs in which the global scale is the maximum after each `_sync`.
-/

namespace BrightnessManager

variable {x : ℚ} {xs : List ℚ}

/-! ## The maximum of a list -/

theorem maxOf_cons (h : xs ≠ []) : maxOf (x :: xs) = max x (maxOf xs) := by
  cases xs with
  | nil => exact absurd rfl h
  | cons y ys => rfl

theorem maxOf_mem (h : xs ≠ []) : maxOf xs ∈ xs := by
  induction xs with
  | nil => exact absurd rfl h
  | cons x xs ih =>
    by_cases hxs : xs = []
    · simp [hxs, maxOf]
    · rw [maxOf_cons hxs]
      rcases max_choice x (maxOf xs) with hmax | hmax
      · rw [hmax]
        exact List.mem_cons_self
      · rw [hmax]
        exact List.mem_cons_of_mem x (ih hxs)

theorem le_maxOf (h : x ∈ xs) : x ≤ maxOf xs := by
  induction xs with
  | nil => cases h
  | cons y xs ih =>
    by_cases hxs : xs = []
    · subst hxs
      rw [List.mem_singleton.mp h]
      exact le_refl y
    · rw [maxOf_cons hxs]
      rcases List.mem_cons.mp h with rfl | h
      · exact le_max_left _ _
      · exact (ih h).trans (le_max_right _ _)

theorem maxOf_eq (h : x ∈ xs) (hle : ∀ y ∈ xs, y ≤ x) : maxOf xs = x :=
  le_antisymm (hle _ (maxOf_mem (List.ne_nil_of_mem h))) (le_maxOf h)

/-! ## Clamping -/

theorem clamp_mem (x : ℚ) : 0 ≤ clamp x 0 1 ∧ clamp x 0 1 ≤ 1 :=
  ⟨le_min (le_max_right _ _) zero_le_one, min_le_right _ _⟩

theorem clamp_of_mem (h0 : 0 ≤ x) (h1 : x ≤ 1) : clamp x 0 1 = x := by
  unfold clamp
  rw [max_eq_left h0, min_eq_left h1]

/-! ## Changing one element of a list -/

section Modify

variable {α β : Type*}
variable {l : List α} {f : α → α}

theorem mem_of_mem_modify {i : Nat} {x : α} (h : x ∈ l.modify i f) : x ∈ l ∨ ∃ y ∈ l, x = f y := by
  obtain ⟨j, hj⟩ := List.mem_iff_getElem?.mp h
  rw [List.getElem?_modify] at hj
  obtain ⟨y, hy, hxy⟩ := Option.map_eq_some_iff.mp hj
  have hmem : y ∈ l := List.mem_of_getElem? hy
  split at hxy
  · exact .inr ⟨y, hmem, hxy.symm⟩
  · exact .inl (hxy ▸ hmem)

theorem map_modify {i : Nat} {g : α → β} {f' : β → β}
    (h : ∀ y ∈ l, g (f y) = f' (g y)) : (l.modify i f).map g = (l.map g).modify i f' := by
  apply List.ext_getElem?
  intro j
  rw [List.getElem?_map, List.getElem?_modify, List.getElem?_modify, List.getElem?_map]
  cases hj : l[j]? with
  | none => rfl
  | some y =>
    have hy := h y (List.mem_of_getElem? hj)
    by_cases hij : i = j
    · simpa [hij] using hy
    · simp [hij]

theorem map_modify_of_eq {i : Nat} {g : α → β}
    (h : ∀ y ∈ l, g (f y) = g y) : (l.modify i f).map g = l.map g := by
  have hid : (l.modify i f).map g = (l.map g).modify i id := map_modify h
  rw [hid, List.modify_id]

theorem map_eq_self (h : ∀ y ∈ l, f y = y) : l.map f = l := by
  conv_rhs => rw [← List.map_id l]
  exact List.map_congr_left h

end Modify

open MonitorBrightnessScale

namespace State

variable {put : ℚ → ℚ}
variable {s : State} {scale : MonitorBrightnessScale} {g : BrightnessScale}

/-! ## What `_sync` leaves -/

def values (s : State) : List ℚ := s.monitorScales.map (·.value)

/-- The bounds that the scales keep to, whatever calls `_sync`. -/
structure Bounded (s : State) : Prop where
  scales : s.globalScale = none ↔ s.monitorScales = []
  globalScale : ∀ g ∈ s.globalScale, 0 ≤ g.value ∧ g.value ≤ 1
  value : ∀ scale ∈ s.monitorScales, 0 ≤ scale.value ∧ scale.value ≤ 1
  factor : ∀ scale ∈ s.monitorScales, 0 ≤ scale.scaleFactor ∧ scale.scaleFactor ≤ 1
  whole : s.monitorScales ≠ [] → ∃ scale ∈ s.monitorScales, scale.scaleFactor = 1

/-- No change is waiting for a `_sync`. -/
structure Unchanged (s : State) : Prop where
  globalScale : s.globalScaleChanged = false
  scales : ∀ scale ∈ s.monitorScales, scale.scaleChanged = false

/-- Every backlight has the brightness that `_sync` would set. -/
def Lit (put : ℚ → ℚ) (s : State) : Prop :=
  ∀ scale ∈ s.monitorScales, scale.setBacklight put (s.brightness scale) = scale

/-- What every `_sync` leaves. -/
structure Steady (put : ℚ → ℚ) (s : State) : Prop where
  bounded : s.Bounded
  unchanged : s.Unchanged
  lit : s.Lit put

theorem not_backlightChanged_of_lit (h : s.Lit put) (hmem : scale ∈ s.monitorScales) :
    scale.backlight.brightness = scale.currentBacklightBrightness := by
  have heq := h scale hmem
  calc scale.backlight.brightness
      = (scale.setBacklight put (s.brightness scale)).backlight.brightness := by rw [heq]
    _ = (scale.setBacklight put (s.brightness scale)).currentBacklightBrightness := rfl
    _ = scale.currentBacklightBrightness := by rw [heq]

theorem syncWithBacklight_of_eq
    (h : scale.backlight.brightness = scale.currentBacklightBrightness) :
    scale.syncWithBacklight = scale := by
  simp [syncWithBacklight, backlightChanged, h]

theorem syncWithBacklights_of_eq (h : ∀ scale ∈ s.monitorScales,
    scale.backlight.brightness = scale.currentBacklightBrightness) : s.syncWithBacklights = s := by
  have hmap : s.monitorScales.map syncWithBacklight = s.monitorScales :=
    map_eq_self fun scale hs => syncWithBacklight_of_eq (h scale hs)
  have hany : s.monitorScales.any (·.backlightChanged) = false := by
    rw [List.any_eq_false]
    intro scale hs
    simp [backlightChanged, h scale hs]
  unfold syncWithBacklights
  rw [hmap, hany]
  simp

theorem changedScales_of_unchanged
    (h : ∀ scale ∈ s.monitorScales, scale.scaleChanged = false) : s.changedScales = [] := by
  rw [changedScales, List.filter_eq_nil_iff]
  intro scale hs
  simp [h scale hs]

theorem syncScales_of_unchanged (h : s.Unchanged) (g : BrightnessScale)
    (show_ : Bool) : s.syncScales g show_ = s := by
  simp [syncScales, changedScales_of_unchanged h.scales, h.globalScale]

theorem setBacklights_of_lit (h : s.Lit put) : s.setBacklights put = s := by
  have hmap : (s.monitorScales.map fun scale => scale.setBacklight put (s.brightness scale)) =
      s.monitorScales := map_eq_self h
  unfold setBacklights
  rw [hmap]

/-- **Another `_sync` changes nothing.** -/
theorem sync_of_steady (h : s.Steady put) (show_ : Bool) : s.sync put show_ = s := by
  unfold sync
  cases s.globalScale with
  | none => rfl
  | some g =>
    have hback := syncWithBacklights_of_eq fun scale hs => not_backlightChanged_of_lit h.lit hs
    simp only [hback, syncScales_of_unchanged h.unchanged, setBacklights_of_lit h.lit]

/-! ## What `_sync` keeps -/

/-- What is passed to `_sync`: the bounds, and not both kinds of change. -/
structure Ready (s : State) : Prop where
  bounded : s.Bounded
  exclusive : s.globalScaleChanged = true →
    s.globalScale ≠ none ∧ ∀ scale ∈ s.monitorScales, scale.scaleChanged = false

theorem Bounded.map {s s' : State} (h : s.Bounded) {f : MonitorBrightnessScale → MonitorBrightnessScale}
    (hs : s'.monitorScales = s.monitorScales.map f) (hg : s'.globalScale = s.globalScale)
    (hvalue : ∀ scale ∈ s.monitorScales, 0 ≤ (f scale).value ∧ (f scale).value ≤ 1)
    (hfactor : ∀ scale ∈ s.monitorScales, (f scale).scaleFactor = scale.scaleFactor) :
    s'.Bounded := by
  refine ⟨?_, fun g hgs => h.globalScale g (hg ▸ hgs), ?_, ?_, ?_⟩
  · rw [hs, hg, List.map_eq_nil_iff]
    exact h.scales
  · intro scale hmem
    rw [hs] at hmem
    obtain ⟨t, ht, rfl⟩ := List.mem_map.mp hmem
    exact hvalue t ht
  · intro scale hmem
    rw [hs] at hmem
    obtain ⟨t, ht, rfl⟩ := List.mem_map.mp hmem
    rw [hfactor t ht]
    exact h.factor t ht
  · intro hne
    rw [hs, Ne, List.map_eq_nil_iff] at hne
    obtain ⟨t, ht, hone⟩ := h.whole hne
    exact ⟨f t, hs ▸ List.mem_map_of_mem ht, (hfactor t ht).trans hone⟩

theorem syncWithBacklight_value (scale : MonitorBrightnessScale)
    (h : 0 ≤ scale.value ∧ scale.value ≤ 1) :
    0 ≤ scale.syncWithBacklight.value ∧ scale.syncWithBacklight.value ≤ 1 := by
  unfold syncWithBacklight
  split
  · exact clamp_mem _
  · exact h

theorem syncWithBacklight_fields (scale : MonitorBrightnessScale) :
    scale.syncWithBacklight.scaleFactor = scale.scaleFactor ∧
      scale.syncWithBacklight.scaleChanged = scale.scaleChanged ∧
      scale.syncWithBacklight.backlight = scale.backlight ∧
      scale.syncWithBacklight.backlights = scale.backlights := by
  unfold syncWithBacklight
  split <;> exact ⟨rfl, rfl, rfl, rfl⟩

theorem Ready.syncWithBacklights (h : s.Ready) : s.syncWithBacklights.Ready where
  bounded := h.bounded.map rfl rfl
    (fun scale hs => syncWithBacklight_value scale (h.bounded.value scale hs))
    fun scale _ => (syncWithBacklight_fields scale).1
  exclusive hchanged := by
    obtain ⟨hg, hs⟩ := h.exclusive hchanged
    refine ⟨hg, fun scale hmem => ?_⟩
    obtain ⟨t, ht, rfl⟩ := List.mem_map.mp hmem
    exact (syncWithBacklight_fields t).2.1.trans (hs t ht)

theorem values_ne_nil (h : s.monitorScales ≠ []) : s.values ≠ [] := by
  simpa [values] using h

theorem maxValue_eq (s : State) : maxValue s.monitorScales = maxOf s.values := rfl

theorem Bounded.max_mem (h : s.Bounded) (hne : s.monitorScales ≠ []) :
    0 ≤ maxOf s.values ∧ maxOf s.values ≤ 1 := by
  obtain ⟨scale, hs, heq⟩ := List.mem_map.mp (maxOf_mem (values_ne_nil hne))
  rw [values, ← heq]
  exact h.value scale hs

theorem showOSD_fields (s : State) (show_ : Bool) (scales : List MonitorBrightnessScale) :
    (s.showOSD show_ scales).globalScale = s.globalScale ∧
      (s.showOSD show_ scales).monitorScales = s.monitorScales ∧
      (s.showOSD show_ scales).globalScaleChanged = s.globalScaleChanged := by
  unfold showOSD
  split <;> exact ⟨rfl, rfl, rfl⟩

theorem resetChanged_values (s : State) : s.resetChanged.values = s.values := by
  simp [values, resetChanged, Function.comp_def]

theorem followScales_values (s : State) (g : BrightnessScale) (max : ℚ) :
    (s.followScales g max).values = s.values := by
  unfold values followScales
  dsimp only
  split
  · simp [Function.comp_def, updateScaleFactor]
  · rfl

section

variable (h : s.Bounded)
include h

theorem Bounded.resetChanged : s.resetChanged.Bounded :=
  h.map rfl rfl (fun scale hs => h.value scale hs) fun _ _ => rfl

theorem Bounded.followScales (g : BrightnessScale)
    (hne : s.monitorScales ≠ []) : (s.followScales g (maxOf s.values)).Bounded := by
  have hg : ∀ g' ∈ (s.followScales g (maxOf s.values)).globalScale,
      0 ≤ g'.value ∧ g'.value ≤ 1 := by
    intro g' hg'
    cases hg'
    exact clamp_mem _
  by_cases hmax : ratioFloor < maxOf s.values
  · -- the factors are the values in relation to the maximum
    have hpos : 0 < maxOf s.values := lt_trans (by norm_num [ratioFloor]) hmax
    have hs : (s.followScales g (maxOf s.values)).monitorScales =
        s.monitorScales.map (·.updateScaleFactor (maxOf s.values)) := if_pos hmax
    refine ⟨?_, hg, ?_, ?_, fun _ => ?_⟩
    · rw [hs, List.map_eq_nil_iff]
      exact iff_of_false (Option.some_ne_none _) hne
    · intro scale hmem
      rw [hs] at hmem
      obtain ⟨t, ht, rfl⟩ := List.mem_map.mp hmem
      exact h.value t ht
    · intro scale hmem
      rw [hs] at hmem
      obtain ⟨t, ht, rfl⟩ := List.mem_map.mp hmem
      exact ⟨div_nonneg (h.value t ht).1 hpos.le,
        (div_le_one hpos).mpr (le_maxOf (List.mem_map_of_mem ht))⟩
    · obtain ⟨t, ht, heq⟩ := List.mem_map.mp (maxOf_mem (values_ne_nil hne))
      refine ⟨_, hs ▸ List.mem_map_of_mem ht, ?_⟩
      show t.value / maxOf s.values = 1
      rw [heq]
      exact div_self hpos.ne'
  · have hs : (s.followScales g (maxOf s.values)).monitorScales = s.monitorScales := if_neg hmax
    refine ⟨?_, hg, ?_, ?_, ?_⟩
    · rw [hs]
      exact iff_of_false (Option.some_ne_none _) hne
    · exact fun scale hmem => h.value scale (hs ▸ hmem)
    · exact fun scale hmem => h.factor scale (hs ▸ hmem)
    · intro _
      obtain ⟨t, ht, hone⟩ := h.whole hne
      exact ⟨t, hs ▸ ht, hone⟩

theorem Bounded.showOSD (show_ : Bool)
    (scales : List MonitorBrightnessScale) : (s.showOSD show_ scales).Bounded := by
  unfold State.showOSD
  split <;> exact ⟨h.scales, h.globalScale, h.value, h.factor, h.whole⟩

theorem Bounded.followGlobalScale (g : BrightnessScale) :
    (s.followGlobalScale g).Bounded :=
  h.map rfl rfl (fun _ _ => clamp_mem _) fun _ _ => rfl

end

theorem changedScales_ne_nil (h : s.changedScales ≠ []) : s.monitorScales ≠ [] := by
  rintro hnil
  simp [changedScales, hnil] at h

theorem Ready.syncScales (h : s.Ready) (g : BrightnessScale) (show_ : Bool) :
    (s.syncScales g show_).Bounded ∧ (s.syncScales g show_).Unchanged := by
  by_cases hchanged : s.changedScales = []
  · have hscales : ∀ scale ∈ s.monitorScales, scale.scaleChanged = false := fun scale hs => by
      have hnot := (List.filter_eq_nil_iff.mp hchanged) scale hs
      simpa using hnot
    cases hglobal : s.globalScaleChanged with
    | true =>
      simp only [State.syncScales, hchanged, ne_eq, not_true_eq_false, if_false, hglobal, if_true]
      refine ⟨(h.bounded.followGlobalScale g).showOSD _ _, ?_, fun scale hmem => ?_⟩
      · exact (showOSD_fields _ _ _).2.2
      · rw [(showOSD_fields _ _ _).2.1] at hmem
        obtain ⟨t, ht, rfl⟩ := List.mem_map.mp hmem
        exact hscales t ht
    | false =>
      rw [syncScales_of_unchanged ⟨hglobal, hscales⟩]
      exact ⟨h.bounded, hglobal, hscales⟩
  · have hne := changedScales_ne_nil hchanged
    have hglobal : s.globalScaleChanged = false := by
      by_contra htrue
      obtain ⟨-, hs⟩ := h.exclusive (Bool.eq_true_of_not_eq_false htrue)
      exact hchanged (changedScales_of_unchanged hs)
    have hmax : maxValue s.monitorScales = maxOf s.resetChanged.values := by
      rw [maxValue_eq, resetChanged_values]
    have hreset : s.resetChanged.monitorScales ≠ [] := by
      simpa [State.resetChanged] using hne
    simp only [State.syncScales, if_pos hchanged, hmax]
    refine ⟨(h.bounded.resetChanged.followScales g hreset).showOSD _ _, ?_, fun scale hmem => ?_⟩
    · exact (showOSD_fields _ _ _).2.2.trans hglobal
    · rw [(showOSD_fields _ _ _).2.1] at hmem
      unfold State.followScales at hmem
      dsimp only at hmem
      -- neither the factors nor the global scale have to do with the flags
      split at hmem
      · obtain ⟨t, ht, rfl⟩ := List.mem_map.mp hmem
        obtain ⟨u, -, rfl⟩ := List.mem_map.mp ht
        rfl
      · obtain ⟨u, -, rfl⟩ := List.mem_map.mp hmem
        rfl

theorem setBacklights_values (s : State) : (s.setBacklights put).values = s.values := by
  simp [values, setBacklights, setBacklight, Function.comp_def]

theorem setBacklights_lit (s : State) : (s.setBacklights put).Lit put := by
  intro scale hmem
  obtain ⟨t, ht, rfl⟩ := List.mem_map.mp hmem
  simp [setBacklight, State.brightness, State.setBacklights, Backlight.setRelative, Backlight.range,
    Function.comp_def]

theorem Ready.sync (h : s.Ready) (show_ : Bool) : (s.sync put show_).Steady put := by
  unfold State.sync
  cases hg : s.globalScale with
  | none =>
    have hnil : s.monitorScales = [] := h.bounded.scales.mp hg
    refine ⟨h.bounded, ⟨?_, fun scale hs => ?_⟩, fun scale hs => ?_⟩
    · by_contra htrue
      exact (h.exclusive (Bool.eq_true_of_not_eq_false htrue)).1 hg
    · simp [hnil] at hs
    · simp [hnil] at hs
  | some g =>
    obtain ⟨hb, hu⟩ := h.syncWithBacklights.syncScales g show_
    refine ⟨hb.map rfl rfl (fun scale hs => hb.value scale hs) fun _ _ => rfl, ⟨hu.globalScale, ?_⟩,
      setBacklights_lit _⟩
    intro scale hmem
    obtain ⟨t, ht, rfl⟩ := List.mem_map.mp hmem
    exact hu.scales t ht

/-! ## The global scale -/

def GlobalIsMax (s : State) : Prop :=
  ∀ g ∈ s.globalScale, ratioFloor < maxOf s.values → g.value = maxOf s.values
deriving Decidable

theorem globalIsMax_congr {s s' : State} (hg : s'.globalScale = s.globalScale)
    (hv : s'.values = s.values) : s'.GlobalIsMax ↔ s.GlobalIsMax := by
  unfold GlobalIsMax
  rw [hg, hv]

theorem globalIsMax_setBacklights (s : State) : (s.setBacklights put).GlobalIsMax ↔ s.GlobalIsMax :=
  globalIsMax_congr rfl (setBacklights_values s)

theorem syncScales_values_of_changed (g : BrightnessScale) (show_ : Bool)
    (hchanged : s.changedScales ≠ []) : (s.syncScales g show_).values = s.values := by
  rw [values, State.syncScales, if_pos hchanged, (showOSD_fields _ _ _).2.1]
  exact (followScales_values _ _ _).trans (resetChanged_values s)

section

variable (h : s.Bounded)
include h

theorem syncScales_globalScale_of_changed (g : BrightnessScale)
    (show_ : Bool) (hchanged : s.changedScales ≠ []) :
    (s.syncScales g show_).globalScale = some { g with value := maxOf s.values } := by
  obtain ⟨h0, h1⟩ := h.max_mem (changedScales_ne_nil hchanged)
  rw [State.syncScales, if_pos hchanged, (showOSD_fields _ _ _).1, maxValue_eq]
  show some (g.setValue (maxOf s.values)) = _
  rw [BrightnessScale.setValue, clamp_of_mem h0 h1]

theorem globalIsMax_syncScales_of_changed (g : BrightnessScale)
    (show_ : Bool) (hchanged : s.changedScales ≠ []) : (s.syncScales g show_).GlobalIsMax := by
  intro g' hg' _
  rw [syncScales_globalScale_of_changed h g show_ hchanged] at hg'
  rw [syncScales_values_of_changed g show_ hchanged]
  cases hg'
  rfl

theorem Bounded.syncWithScale_value
    (hg : s.globalScale = some g) (hs : scale ∈ s.monitorScales) :
    (scale.syncWithScale g).value = g.value * scale.scaleFactor := by
  obtain ⟨h0, h1⟩ := h.globalScale g hg
  obtain ⟨hf0, hf1⟩ := h.factor scale hs
  exact clamp_of_mem (mul_nonneg h0 hf0) (mul_le_one₀ h1 hf0 hf1)

theorem globalIsMax_syncScales_of_global
    (hg : s.globalScale = some g) (show_ : Bool) (hscales : s.changedScales = [])
    (hglobal : s.globalScaleChanged = true) : (s.syncScales g show_).GlobalIsMax := by
  have h0 : 0 ≤ g.value := (h.globalScale g hg).1
  have hmono : ∀ scale ∈ s.monitorScales, (scale.syncWithScale g).value = g.value * scale.scaleFactor :=
    fun scale hs => h.syncWithScale_value hg hs
  have hmax : maxOf (s.followGlobalScale g).values = g.value := by
    have hne : s.monitorScales ≠ [] := fun hnil => by simp [h.scales.mpr hnil] at hg
    obtain ⟨t, ht, hone⟩ := h.whole hne
    refine maxOf_eq (List.mem_map.mpr ⟨_, List.mem_map_of_mem ht, ?_⟩) fun y hy => ?_
    · rw [hmono t ht, hone, mul_one]
    · obtain ⟨u, hu, rfl⟩ := List.mem_map.mp hy
      obtain ⟨scale, hs, rfl⟩ := List.mem_map.mp hu
      rw [hmono scale hs]
      exact mul_le_of_le_one_right h0 (h.factor scale hs).2
  simp only [State.syncScales, hscales, ne_eq, not_true_eq_false, if_false, hglobal, if_true]
  intro g' hg' _
  rw [(showOSD_fields _ _ _).1] at hg'
  have heq : g' = g := Option.some.inj (hg'.symm.trans hg)
  rw [values, (showOSD_fields _ _ _).2.1, heq]
  exact hmax.symm

end

theorem sync_some (hg : s.globalScale = some g) (show_ : Bool) :
    s.sync put show_ = (s.syncWithBacklights.syncScales g show_).setBacklights put := by
  simp [State.sync, hg]

theorem changedScales_syncWithBacklights (s : State) :
    s.syncWithBacklights.changedScales = s.changedScales.map syncWithBacklight := by
  simp only [changedScales, syncWithBacklights, List.filter_map, Function.comp_def]
  congr 1
  refine List.filter_congr fun scale _ => ?_
  exact (syncWithBacklight_fields scale).2.1

theorem globalIsMax_sync_of_changed (h : s.Ready) (show_ : Bool)
    (hchanged : s.monitorScales ≠ [] → s.changedScales ≠ []) : (s.sync put show_).GlobalIsMax := by
  cases hg : s.globalScale with
  | none =>
    intro g hg'
    simp [State.sync, hg] at hg'
  | some g =>
    have hne : s.monitorScales ≠ [] := fun hnil => by simp [h.bounded.scales.mpr hnil] at hg
    rw [sync_some hg, globalIsMax_setBacklights]
    refine globalIsMax_syncScales_of_changed h.syncWithBacklights.bounded g show_ ?_
    rw [changedScales_syncWithBacklights, Ne, List.map_eq_nil_iff]
    exact hchanged hne

theorem globalIsMax_sync_of_global (h : s.Ready) (show_ : Bool)
    (hglobal : s.globalScaleChanged = true) : (s.sync put show_).GlobalIsMax := by
  obtain ⟨hne, hscales⟩ := h.exclusive hglobal
  obtain ⟨g, hg⟩ := Option.ne_none_iff_exists'.mp hne
  rw [sync_some hg, globalIsMax_setBacklights]
  refine globalIsMax_syncScales_of_global h.syncWithBacklights.bounded hg show_ ?_ hglobal
  rw [changedScales_syncWithBacklights, changedScales_of_unchanged hscales, List.map_nil]

theorem globalIsMax_sync_iff (h : s.Unchanged) (show_ : Bool) :
    (s.sync put show_).GlobalIsMax ↔ s.syncWithBacklights.GlobalIsMax := by
  cases hg : s.globalScale with
  | none =>
    refine iff_of_true (fun g hg' => ?_) fun g hg' => ?_
    · simp [State.sync, hg] at hg'
    · simp [syncWithBacklights, hg] at hg'
  | some g =>
    have hu : s.syncWithBacklights.Unchanged := ⟨h.globalScale, fun scale hmem => by
      obtain ⟨t, ht, rfl⟩ := List.mem_map.mp hmem
      exact (syncWithBacklight_fields t).2.1.trans (h.scales t ht)⟩
    rw [sync_some hg, globalIsMax_setBacklights, syncScales_of_unchanged hu]

/-! ## What is passed to `_sync` -/

theorem Steady.congr {s s' : State} (h : s.Steady put) (hg : s'.globalScale = s.globalScale)
    (hm : s'.monitorScales = s.monitorScales)
    (hc : s'.globalScaleChanged = s.globalScaleChanged) : s'.Ready ∧ s'.Unchanged := by
  have hu : s'.Unchanged :=
    ⟨hc.trans h.unchanged.globalScale, fun scale hs => h.unchanged.scales scale (hm ▸ hs)⟩
  have hb : s'.Bounded := h.bounded.map (hm.trans (List.map_id _).symm) hg
    (fun scale hs => h.bounded.value scale hs) fun _ _ => rfl
  exact ⟨⟨hb, fun htrue => absurd (htrue.symm.trans hu.globalScale) (by simp)⟩, hu⟩

theorem Steady.setDimming (h : s.Steady put) (enable : Bool) :
    (s.setDimming enable).Ready ∧ (s.setDimming enable).Unchanged := h.congr rfl rfl rfl

theorem Steady.setAutoBrightnessTarget (h : s.Steady put) (target : ℚ) :
    (s.setAutoBrightnessTarget target).Ready ∧ (s.setAutoBrightnessTarget target).Unchanged :=
  h.congr rfl rfl rfl

theorem GlobalIsMax.sync {s s' : State} (hmax : s.GlobalIsMax) (h : s.Steady put)
    (hu : s'.Unchanged) (hg : s'.globalScale = s.globalScale)
    (hm : s'.monitorScales = s.monitorScales) (show_ : Bool) : (s'.sync put show_).GlobalIsMax := by
  have hread : s'.syncWithBacklights = s' := syncWithBacklights_of_eq fun scale hs =>
    not_backlightChanged_of_lit h.lit (hm ▸ hs)
  have hv : s'.values = s.values := by rw [values, values, hm]
  rw [globalIsMax_sync_iff hu, hread]
  exact (globalIsMax_congr hg hv).mpr hmax

theorem mem_scalesOf {monitors : List LogicalMonitor} (h : scale ∈ scalesOf monitors) :
    scale.value = 1 ∧ scale.scaleFactor = 1 ∧ scale.scaleChanged = true := by
  obtain ⟨monitor, -, hm⟩ := List.mem_filterMap.mp h
  split at hm
  · cases hm
  · cases hm
    exact ⟨rfl, rfl, rfl⟩

theorem Steady.setMonitors (h : s.Steady put) (monitors : List LogicalMonitor) :
    (s.setMonitors monitors).Ready := by
  refine ⟨⟨?_, fun g hg => ?_, fun scale hs => ?_, fun scale hs => ?_, fun hne => ?_⟩,
    fun htrue => absurd (htrue.symm.trans h.unchanged.globalScale) (by simp)⟩
  · simp only [State.setMonitors]
    by_cases hnil : scalesOf monitors = []
    · simp [hnil]
    · rw [if_neg hnil]
      refine iff_of_false ?_ hnil
      cases s.globalScale <;> simp
  · simp only [State.setMonitors] at hg
    split at hg
    · cases hg
    · cases hglobal : s.globalScale with
      | none =>
        simp only [hglobal, Option.mem_def, Option.some.injEq] at hg
        subst hg
        exact ⟨zero_le_one, le_refl _⟩
      | some g' =>
        simp only [hglobal, Option.mem_def, Option.some.injEq] at hg
        subst hg
        exact h.bounded.globalScale g' hglobal
  · rw [(mem_scalesOf hs).1]
    exact ⟨zero_le_one, le_refl _⟩
  · rw [(mem_scalesOf hs).2.1]
    exact ⟨zero_le_one, le_refl _⟩
  · obtain ⟨scale, hs⟩ := List.exists_mem_of_ne_nil _ hne
    exact ⟨scale, hs, (mem_scalesOf hs).2.1⟩

theorem setMonitors_changed (s : State) (monitors : List LogicalMonitor)
    (hne : (s.setMonitors monitors).monitorScales ≠ []) :
    (s.setMonitors monitors).changedScales ≠ [] := by
  obtain ⟨scale, hs⟩ := List.exists_mem_of_ne_nil _ hne
  exact List.ne_nil_of_mem (List.mem_filter.mpr ⟨hs, (mem_scalesOf hs).2.2⟩)

theorem Steady.changeGlobalScale (h : s.Steady put)
    (hg : s.globalScale = some g) (c : Change) : (s.changeGlobalScale g c).Ready := by
  refine ⟨⟨?_, fun g' hg' => ?_, h.bounded.value, h.bounded.factor, h.bounded.whole⟩,
    fun _ => ⟨Option.some_ne_none _, h.unchanged.scales⟩⟩
  · refine iff_of_false (Option.some_ne_none _) fun hnil => ?_
    rw [h.bounded.scales.mpr hnil] at hg
    cases hg
  · cases hg'
    exact clamp_mem _

theorem Bounded.modify {s s' : State} (h : s.Bounded) {i : Nat}
    {f : MonitorBrightnessScale → MonitorBrightnessScale}
    (hs : s'.monitorScales = s.monitorScales.modify i f) (hg : s'.globalScale = s.globalScale)
    (hvalue : ∀ scale ∈ s.monitorScales, 0 ≤ (f scale).value ∧ (f scale).value ≤ 1)
    (hfactor : ∀ scale, (f scale).scaleFactor = scale.scaleFactor) : s'.Bounded := by
  have hfactors : s'.monitorScales.map (·.scaleFactor) = s.monitorScales.map (·.scaleFactor) := by
    rw [hs]
    exact map_modify_of_eq fun scale _ => hfactor scale
  refine ⟨?_, fun g hgs => h.globalScale g (hg ▸ hgs), fun scale hmem => ?_, fun scale hmem => ?_,
    fun hne => ?_⟩
  · rw [hs, hg, List.modify_eq_nil_iff]
    exact h.scales
  · rw [hs] at hmem
    rcases mem_of_mem_modify hmem with hmem | ⟨t, ht, rfl⟩
    · exact h.value scale hmem
    · exact hvalue t ht
  · obtain ⟨t, ht, heq⟩ := List.mem_map.mp (hfactors ▸ List.mem_map_of_mem hmem)
    rw [← heq]
    exact h.factor t ht
  · rw [hs, Ne, List.modify_eq_nil_iff] at hne
    obtain ⟨t, ht, hone⟩ := h.whole hne
    obtain ⟨u, hu, heq⟩ := List.mem_map.mp (hfactors.symm ▸ List.mem_map_of_mem ht)
    exact ⟨u, hu, heq.trans hone⟩

theorem Steady.changeScale (h : s.Steady put) (i : Nat) (c : Change) : (s.changeScale i c).Ready :=
  ⟨h.bounded.modify rfl rfl (fun _ _ => clamp_mem _) fun _ => rfl,
    fun htrue => absurd (htrue.symm.trans h.unchanged.globalScale) (by simp)⟩

theorem changeScale_changed {i : Nat} (hi : i < s.monitorScales.length) (c : Change) :
    (s.changeScale i c).changedScales ≠ [] := by
  have hmem : { s.monitorScales[i].withValue (s.monitorScales[i].toBrightnessScale.changed c) with
      scaleChanged := true } ∈ (s.changeScale i c).monitorScales := by
    refine List.mem_iff_getElem?.mpr ⟨i, ?_⟩
    simp [State.changeScale, List.getElem?_eq_getElem hi]
  exact List.ne_nil_of_mem (List.mem_filter.mpr ⟨hmem, rfl⟩)

theorem Steady.changeBacklight (h : s.Steady put) (i : Nat) (j : Option Nat)
    (brightness : ℚ) : (s.changeBacklight i j brightness).Ready ∧
      (s.changeBacklight i j brightness).Unchanged := by
  have hb : (s.changeBacklight i j brightness).Bounded := by
    refine h.bounded.modify rfl rfl (fun scale hs => ?_) fun scale => ?_
    · cases j <;> exact h.bounded.value scale hs
    · cases j <;> rfl
  refine ⟨⟨hb, fun htrue => absurd (htrue.symm.trans h.unchanged.globalScale) (by simp)⟩,
    h.unchanged.globalScale, fun scale hmem => ?_⟩
  rcases mem_of_mem_modify hmem with hmem | ⟨t, ht, rfl⟩
  · exact h.unchanged.scales scale hmem
  · cases j <;> exact h.unchanged.scales t ht

/-- The values of the monitor scales once the scale of a monitor has taken over the brightness
that the system has given its first backlight. -/
def valuesAfter (s : State) (i : Nat) (j : Option Nat) (brightness : ℚ) : List ℚ :=
  match j with
  | none => (s.monitorScales.modify i fun scale =>
      if brightness = scale.backlight.brightness then scale
      else scale.withValue { scale.backlight with brightness := brightness : Backlight }.relative).map
        (·.value)
  | some _ => s.values

theorem changeBacklight_values (h : s.Lit put) (i : Nat) (j : Option Nat) (brightness : ℚ) :
    (s.changeBacklight i j brightness).syncWithBacklights.values = s.valuesAfter i j brightness := by
  have hread : ∀ scale ∈ s.monitorScales, scale.syncWithBacklight = scale := fun scale hs =>
    syncWithBacklight_of_eq (not_backlightChanged_of_lit h hs)
  have hsame : s.monitorScales.map syncWithBacklight = s.monitorScales := map_eq_self hread
  simp only [values, syncWithBacklights, State.changeBacklight, valuesAfter]
  cases j with
  | some j =>
    -- only the first backlight is read
    have hmod : (s.monitorScales.modify i fun scale => ({ scale with
        backlights := scale.backlights.modify j fun b => { b with brightness := brightness } } :
        MonitorBrightnessScale)).map (fun scale => scale.syncWithBacklight.value) =
        s.monitorScales.map fun scale => scale.syncWithBacklight.value := by
      refine map_modify_of_eq fun scale _ => ?_
      by_cases heq : scale.backlight.brightness = scale.currentBacklightBrightness <;>
        simp [syncWithBacklight, backlightChanged, withValue, heq]
    simp only [List.map_map, Function.comp_def]
    rw [hmod]
    exact List.map_congr_left fun scale hs => by rw [hread scale hs]
  | none =>
    have hmod : ∀ scale ∈ s.monitorScales,
        ({ scale with backlight := { scale.backlight with brightness := brightness } } :
          MonitorBrightnessScale).syncWithBacklight.value =
        (if brightness = scale.backlight.brightness then scale
          else scale.withValue
            ({ scale.backlight with brightness := brightness } : Backlight).relative).value := by
      intro scale hs
      have hcur := not_backlightChanged_of_lit h hs
      by_cases heq : brightness = scale.backlight.brightness
      · simp [syncWithBacklight, backlightChanged, heq, ← hcur]
      · simp [syncWithBacklight, backlightChanged, heq, ← hcur, withValue]
    apply List.ext_getElem?
    intro k
    simp only [List.getElem?_map, List.getElem?_modify]
    cases hk : s.monitorScales[k]? with
    | none => rfl
    | some scale =>
      have hs := List.mem_of_getElem? hk
      by_cases hik : i = k
      · simpa [hik] using hmod scale hs
      · simp [hik, hread scale hs]

/-! ## The steps -/

theorem steady_new (dimmingTarget : ℚ) : (State.new dimmingTarget).Steady put := by
  have hnil : ∀ scale, scale ∉ (State.new dimmingTarget).monitorScales := fun _ =>
    List.not_mem_nil
  exact ⟨⟨⟨fun _ => rfl, fun _ => rfl⟩, nofun, fun scale hs => absurd hs (hnil scale),
    fun scale hs => absurd hs (hnil scale), fun h => absurd rfl h⟩,
    ⟨rfl, fun scale hs => absurd hs (hnil scale)⟩, fun scale hs => absurd hs (hnil scale)⟩

theorem globalIsMax_new (dimmingTarget : ℚ) : (State.new dimmingTarget).GlobalIsMax := nofun

end State

open State

section Steps

variable {put : ℚ → ℚ}

def FollowsMax (s : State) : Event → Prop
  | .backlight i j brightness => i < s.monitorScales.length → ∀ g ∈ s.globalScale,
      ratioFloor < maxOf (s.valuesAfter i j brightness) →
        g.value = maxOf (s.valuesAfter i j brightness)
  | _ => True

/-- After the `_sync` of an event the global scale is the maximum, and another `_sync` changes
nothing. -/
def AfterSync (put : ℚ → ℚ) (s : State) (e : Event) : Prop :=
  ∀ s', step put s e = some s' → s'.GlobalIsMax ∧ ∀ show_, s'.sync put show_ = s'

/-- **The step lemma.** Whatever calls `_sync`, it leaves a steady state. -/
theorem steady_step {s s' : State} {e : Event} (h : s.Steady put) (hstep : step put s e = some s') :
    s'.Steady put := by
  cases e with
  | monitorsChanged monitors =>
    cases hstep
    exact (h.setMonitors monitors).sync false
  | globalScale c =>
    obtain ⟨g, hg, rfl⟩ := Option.map_eq_some_iff.mp hstep
    exact (h.changeGlobalScale hg c).sync true
  | monitorScale i c =>
    simp only [step, Option.ite_none_right_eq_some, Option.some.injEq] at hstep
    obtain ⟨-, rfl⟩ := hstep
    exact (h.changeScale i c).sync true
  | backlight i j brightness =>
    simp only [step, Option.ite_none_right_eq_some, Option.some.injEq] at hstep
    obtain ⟨-, rfl⟩ := hstep
    exact (h.changeBacklight i j brightness).1.sync true
  | dimming enable =>
    cases hstep
    exact (h.setDimming enable).1.sync true
  | autoBrightnessTarget target =>
    cases hstep
    exact (h.setAutoBrightnessTarget target).1.sync true

theorem globalIsMax_step_iff {s s' : State} {e : Event} (h : s.Steady put) (hmax : s.GlobalIsMax)
    (hstep : step put s e = some s') : s'.GlobalIsMax ↔ FollowsMax s e := by
  cases e with
  | monitorsChanged monitors =>
    cases hstep
    exact iff_of_true (globalIsMax_sync_of_changed (h.setMonitors monitors) false
      (setMonitors_changed s monitors)) trivial
  | globalScale c =>
    obtain ⟨g, hg, rfl⟩ := Option.map_eq_some_iff.mp hstep
    exact iff_of_true (globalIsMax_sync_of_global (h.changeGlobalScale hg c) true rfl) trivial
  | monitorScale i c =>
    simp only [step, Option.ite_none_right_eq_some, Option.some.injEq] at hstep
    obtain ⟨hi, rfl⟩ := hstep
    exact iff_of_true (globalIsMax_sync_of_changed (h.changeScale i c) true
      fun _ => changeScale_changed hi c) trivial
  | backlight i j brightness =>
    simp only [step, Option.ite_none_right_eq_some, Option.some.injEq] at hstep
    obtain ⟨hi, rfl⟩ := hstep
    rw [globalIsMax_sync_iff (h.changeBacklight i j brightness).2, GlobalIsMax,
      changeBacklight_values h.lit]
    exact ⟨fun hg _ => hg, fun hf => hf hi⟩
  | dimming enable =>
    cases hstep
    exact iff_of_true (hmax.sync h (h.setDimming enable).2 rfl rfl true) trivial
  | autoBrightnessTarget target =>
    cases hstep
    exact iff_of_true (hmax.sync h (h.setAutoBrightnessTarget target).2 rfl rfl true) trivial

/-- **The global scale over whole runs.** In a run from the construction of the manager, every
`_sync` leaves the global scale at the maximum of the monitor scales (if that exceeds the floor)
and nothing to do for another `_sync`, if and only if every change of a backlight by the system
leaves the maximum where the global scale is. -/
theorem afterSync_run_iff (put : ℚ → ℚ) (dimmingTarget : ℚ) (es : List Event) :
    Runs.Allowed (step put) (AfterSync put) (State.new dimmingTarget) es ↔
      Runs.Allowed (step put) (fun s e => (step put s e).isSome → FollowsMax s e)
        (State.new dimmingTarget) es := by
  have hok : ∀ s e, s.Steady put ∧ s.GlobalIsMax →
      (AfterSync put s e ↔ ((step put s e).isSome → FollowsMax s e)) := by
    rintro s e ⟨hs, hmax⟩
    constructor
    · intro h hsome
      obtain ⟨s', hstep⟩ := Option.isSome_iff_exists.mp hsome
      exact (globalIsMax_step_iff hs hmax hstep).mp (h s' hstep).1
    · intro h s' hstep
      exact ⟨(globalIsMax_step_iff hs hmax hstep).mpr (h (hstep ▸ rfl)),
        sync_of_steady (steady_step hs hstep)⟩
  refine Runs.Allowed.congr ⟨steady_new dimmingTarget, globalIsMax_new dimmingTarget⟩ hok ?_
  rintro s e s' ⟨hs, -⟩ hafter hstep
  exact ⟨steady_step hs hstep, (hafter s' hstep).1⟩

end Steps

def fullBrightness : State :=
  ((State.new (3 / 10)).setMonitors [⟨0, [⟨100, 0, 100, by norm_num⟩]⟩]).sync id false

/-- The system halves the brightness: the global scale stays at 1, the monitor scale is 1/2. -/
theorem not_afterSync_system_change : ¬ ∀ put dimmingTarget es,
    Runs.Allowed (step put) (AfterSync put) (State.new dimmingTarget) es := by
  intro h
  have hrun := h id (3 / 10) [.monitorsChanged [⟨0, [⟨100, 0, 100, by norm_num⟩]⟩],
    .backlight 0 none 50]
  have hlt : 0 < fullBrightness.monitorScales.length := by decide +kernel
  have hmax := ((hrun.2 fullBrightness rfl).1 _ (if_pos hlt)).1
  revert hmax
  decide +kernel

end BrightnessManager
