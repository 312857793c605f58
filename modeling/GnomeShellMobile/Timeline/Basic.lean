import Mathlib.MeasureTheory.Measure.Lebesgue.Basic
import Mathlib.MeasureTheory.Measure.Real

/-!
# Timeline — how long something holds

A set of times, and the length of the part of it that lies between two times. The set need not be
measurable: only intervals are cut out of it.

* **`lengthIn_add`**: the length up to a time and from it on.
* **`lengthIn_of_mem`**, **`lengthIn_of_notMem`**: a stretch that lies within the set, or outside.
* **`FirstAt`**: the moment at which the length reaches a value, which is unique.
-/

namespace Timeline

open MeasureTheory Set

variable {A : Set ℝ} {a b c : ℝ}

/-- The length of the part of `A` between `a` and `b`. -/
noncomputable def lengthIn (A : Set ℝ) (a b : ℝ) : ℝ := volume.real (A ∩ Icc a b)

theorem lengthIn_nonneg : 0 ≤ lengthIn A a b := measureReal_nonneg

theorem measure_inter_Icc_ne_top : volume (A ∩ Icc a b) ≠ ⊤ :=
  ((measure_mono inter_subset_right).trans_lt measure_Icc_lt_top).ne

theorem lengthIn_le (hab : a ≤ b) : lengthIn A a b ≤ b - a := by
  rw [lengthIn, ← Real.volume_real_Icc_of_le hab]
  exact measureReal_mono inter_subset_right measure_Icc_lt_top.ne

theorem lengthIn_mono (hbc : b ≤ c) : lengthIn A a b ≤ lengthIn A a c :=
  measureReal_mono (inter_subset_inter_right A (Icc_subset_Icc_right hbc)) measure_inter_Icc_ne_top

@[simp] theorem lengthIn_self : lengthIn A a a = 0 :=
  le_antisymm ((lengthIn_le le_rfl).trans_eq (sub_self a)) lengthIn_nonneg

theorem lengthIn_add (hab : a ≤ b) (hbc : b ≤ c) :
    lengthIn A a c = lengthIn A a b + lengthIn A b c := by
  have hclosed : MeasurableSet (Icc a b) := measurableSet_Icc
  have hcut := measureReal_inter_add_sdiff hclosed (measure_inter_Icc_ne_top (A := A) (a := a) (b := c))
  have hfirst : A ∩ Icc a c ∩ Icc a b = A ∩ Icc a b := by
    rw [inter_assoc, inter_eq_right.mpr (Icc_subset_Icc_right hbc)]
  have hsecond : (A ∩ Icc a c) \ Icc a b = A ∩ Ioc b c := by
    ext t
    simp only [mem_sdiff, mem_inter_iff, mem_Icc, mem_Ioc, not_and, not_le]
    constructor
    · rintro ⟨⟨hA, hat, htc⟩, hout⟩
      exact ⟨hA, hout hat, htc⟩
    · rintro ⟨hA, hbt, htc⟩
      exact ⟨⟨hA, hab.trans hbt.le, htc⟩, fun _ => hbt⟩
  have hopen : volume.real (A ∩ Ioc b c) = volume.real (A ∩ Icc b c) :=
    measureReal_congr (ae_eq_set_inter (ae_eq_refl A) Ioc_ae_eq_Icc)
  rw [hfirst, hsecond, hopen] at hcut
  exact hcut.symm

theorem lengthIn_of_mem (hab : a ≤ b) (h : ∀ t, a ≤ t → t < b → t ∈ A) : lengthIn A a b = b - a := by
  have hopen : volume.real (A ∩ Icc a b) = volume.real (A ∩ Ico a b) :=
    measureReal_congr (ae_eq_set_inter (ae_eq_refl A) Ico_ae_eq_Icc.symm)
  have hall : A ∩ Ico a b = Ico a b := inter_eq_right.mpr fun t ht => h t ht.1 ht.2
  rw [lengthIn, hopen, hall, Real.volume_real_Ico_of_le hab]

theorem lengthIn_of_notMem (h : ∀ t, a ≤ t → t < b → t ∉ A) : lengthIn A a b = 0 := by
  have hopen : volume.real (A ∩ Icc a b) = volume.real (A ∩ Ico a b) :=
    measureReal_congr (ae_eq_set_inter (ae_eq_refl A) Ico_ae_eq_Icc.symm)
  have hnone : A ∩ Ico a b = ∅ := by
    ext t
    simp only [mem_inter_iff, mem_Ico, mem_empty_iff_false, iff_false, not_and]
    exact fun hA hat htb => h t hat htb hA
  rw [lengthIn, hopen, hnone, measureReal_empty]

/-- The length from `a` on is `x` at time `t` and less at every time before. -/
structure FirstAt (A : Set ℝ) (a x t : ℝ) : Prop where
  start : a ≤ t
  length : lengthIn A a t = x
  before : ∀ u, a ≤ u → u < t → lengthIn A a u < x

theorem FirstAt.of_mem {x : ℝ} (hab : a ≤ b) (hless : lengthIn A a b < x)
    (h : ∀ t, b ≤ t → t < b + (x - lengthIn A a b) → t ∈ A) :
    FirstAt A a x (b + (x - lengthIn A a b)) := by
  have hlen : ∀ u, b ≤ u → u ≤ b + (x - lengthIn A a b) → lengthIn A a u = lengthIn A a b + (u - b) := by
    intro u hbu hu
    rw [lengthIn_add hab hbu, lengthIn_of_mem hbu fun t hbt htu => h t hbt (htu.trans_le hu)]
  refine ⟨by linarith, ?_, fun u hau hu => ?_⟩
  · rw [hlen _ (by linarith) le_rfl]
    ring
  · rcases le_total u b with hub | hbu
    · exact (lengthIn_mono hub).trans_lt hless
    · rw [hlen u hbu hu.le]
      linarith

end Timeline
