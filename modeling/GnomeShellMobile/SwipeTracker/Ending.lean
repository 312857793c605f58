import GnomeShellMobile.SwipeTracker.Gesture

/-!
# SwipeTracker — what a gesture ends with

Every gesture of `SwipeTracker` of `src/js/ui/swipeTracker.js`: a swipe that is confirmed within the range
of its snap points, any updates, and any end.

* **`Between`** — a snap point with none between it and a position.
* **`Inv.of_gesture`** — the peeked indices stay in the array, and stand for points next to where the
  gesture has been.
* **`gesture_endsWell`** — the headline: the end is at a snap point, next to where the gesture has been
  unless long swipes are allowed, and takes no time or a time within bounds.
-/

namespace SwipeTracker

inductive Gesture : Tracker → List ℚ → Tracker → Prop where
  | confirm (t : Tracker) {distance : ℚ} {snapPoints : List ℚ} {currentProgress : ℚ}
      (cancelProgress : ℚ) (animatingTowardsProgress : Option ℚ) (hdistance : 0 < distance)
      (hsorted : snapPoints.Pairwise (· ≤ ·)) (hfirst : ∃ v ∈ snapPoints, v ≤ currentProgress)
      (hlast : ∃ v ∈ snapPoints, currentProgress ≤ v) :
      Gesture (t.confirmSwipe distance snapPoints currentProgress cancelProgress
          animatingTowardsProgress) [currentProgress]
        (t.confirmSwipe distance snapPoints currentProgress cancelProgress animatingTowardsProgress)
  | update {start t t' : Tracker} {been : List ℚ} (delta : ℚ) (isTouchpad : Bool)
      (h : Gesture start been t) (hupdate : t.updatePanGesture delta isTouchpad = some t') :
      Gesture start (t'.progress :: been) t'

variable (start : Tracker)

variable (been : List ℚ)

def Low (v : ℚ) : Prop :=
  start.snapPoint start.peekedMinSnapPoint = some v ∨ ∃ p ∈ been, IsPrev start.snapPoints p v

def High (v : ℚ) : Prop :=
  start.snapPoint start.peekedMaxSnapPoint = some v ∨ ∃ p ∈ been, IsNext start.snapPoints p v

structure EndsWell (t : Tracker) (e : ℚ × ℚ) : Prop where
  snaps : e.2 ∈ start.snapPoints
  duration : e.1 = 0 ∨ 100 ≤ e.1 ∧ e.1 ≤ 400
  low : t.allowLongSwipes = false → ∃ v ≤ e.2, Low start been v
  high : t.allowLongSwipes = false → ∃ v, e.2 ≤ v ∧ High start been v

/-! ## Points with none in between -/

/-- A snap point with none between it and `pos`. -/
structure Between (points : List ℚ) (pos r : ℚ) : Prop where
  mem : r ∈ points
  low : ∀ v ∈ points, v ≤ pos → v ≤ r
  high : ∀ v ∈ points, pos ≤ v → r ≤ v

variable {points : List ℚ} {pos r v : ℚ}

theorem IsPrev.between (h : IsPrev points pos r) : Between points pos r :=
  ⟨h.mem, h.last, fun _ _ hv => h.le.trans hv⟩

theorem IsNext.between (h : IsNext points pos r) : Between points pos r :=
  ⟨h.mem, fun _ _ hv => hv.trans h.ge, h.first⟩

theorem Between.of_closest (hmem : r ∈ points) (h : ∀ u ∈ points, |r - pos| ≤ |u - pos|) :
    Between points pos r := by
  refine ⟨hmem, fun v hv hle => ?_, fun v hv hle => ?_⟩
  · by_contra hlt
    have hclose := h v hv
    rw [abs_of_nonpos (by linarith), abs_of_nonpos (by linarith)] at hclose
    linarith
  · by_contra hlt
    have hclose := h v hv
    rw [abs_of_nonneg (by linarith), abs_of_nonneg (by linarith)] at hclose
    linarith

theorem clamp_mem {x lower upper : ℚ} (h : lower ≤ upper) :
    lower ≤ clamp x lower upper ∧ clamp x lower upper ≤ upper :=
  ⟨le_min (le_max_right x lower) h, min_le_right _ _⟩

namespace Tracker

variable {t : Tracker}

theorem findClosestPoint_between (hne : t.snapPoints ≠ []) (pos : ℚ) :
    ∃ r, t.snapPoint (t.findClosestPoint pos) = some r ∧ Between t.snapPoints pos r := by
  obtain ⟨r, hr, hmem, hclosest⟩ := findClosestPoint_spec hne pos
  exact ⟨r, hr, .of_closest hmem hclosest⟩

theorem findPointForProjection_between (hsorted : t.snapPoints.Pairwise (· ≤ ·)) (velocity : ℚ)
    (hfirst : ∃ v ∈ t.snapPoints, v ≤ pos) (hlast : ∃ v ∈ t.snapPoints, pos ≤ v) :
    ∃ r, t.snapPoint (t.findPointForProjection pos velocity) = some r ∧
      Between t.snapPoints pos r := by
  have hne : t.snapPoints ≠ [] := by
    obtain ⟨v, hv, -⟩ := hfirst
    exact List.ne_nil_of_mem hv
  obtain ⟨prev, hprev, hisPrev⟩ := findPreviousPoint_spec hsorted hfirst
  obtain ⟨next, hnext, hisNext⟩ := findNextPoint_spec hsorted hlast
  have hclosest := findClosestPoint_between hne pos
  unfold findPointForProjection
  dsimp only
  by_cases hforward : velocity > 0
  · rw [if_pos hforward, if_pos hforward]
    split
    · exact ⟨next, hnext, hisNext.between⟩
    · exact hclosest
  · rw [if_neg hforward, if_neg hforward]
    split
    · exact ⟨prev, hprev, hisPrev.between⟩
    · exact hclosest

theorem snapPoint_ends (hne : t.snapPoints ≠ []) (hsorted : t.snapPoints.Pairwise (· ≤ ·)) :
    ∃ first last, t.snapPoint 0 = some first ∧
      t.snapPoint ((t.snapPoints.length : ℤ) - 1) = some last ∧ first ∈ t.snapPoints ∧
      last ∈ t.snapPoints ∧ ∀ v ∈ t.snapPoints, first ≤ v ∧ v ≤ last := by
  have hlen : 0 < t.snapPoints.length := List.length_pos_of_ne_nil hne
  have hfirst := List.getElem?_eq_getElem (l := t.snapPoints) (i := 0) hlen
  have hlast := List.getElem?_eq_getElem (l := t.snapPoints) (i := t.snapPoints.length - 1) (by omega)
  have hcast : (t.snapPoints.length : ℤ) - 1 = ((t.snapPoints.length - 1 : ℕ) : ℤ) := by omega
  refine ⟨_, _, (t.snapPoint_natCast 0).trans hfirst, ?_, List.mem_of_getElem? hfirst,
    List.mem_of_getElem? hlast, ?_⟩
  · rw [hcast, snapPoint_natCast, hlast]
  · intro v hv
    obtain ⟨i, hi⟩ := List.mem_iff_getElem?.mp hv
    have hilen := (List.getElem?_eq_some_iff.mp hi).1
    exact ⟨getElem?_le hsorted hfirst hi (Nat.zero_le i), getElem?_le hsorted hi hlast (by omega)⟩

theorem snapPoint_eq_some_iff {i : ℤ} :
    t.snapPoint i = some v ↔ 0 ≤ i ∧ t.snapPoints[i.toNat]? = some v := by
  by_cases h : 0 ≤ i
  · rw [snapPoint, if_pos h]
    exact ⟨fun hv => ⟨h, hv⟩, fun hv => hv.2⟩
  · rw [snapPoint, if_neg h]
    exact ⟨(by cases ·), fun hv => absurd hv.1 h⟩

theorem snapPoint_mem {i : ℤ} (h : t.snapPoint i = some v) : v ∈ t.snapPoints :=
  List.mem_of_getElem? (snapPoint_eq_some_iff.mp h).2

section

variable (hsorted : t.snapPoints.Pairwise (· ≤ ·))
include hsorted

theorem snapPoint_le {i j : ℤ} {u : ℚ}
    (hi : t.snapPoint i = some u) (hj : t.snapPoint j = some v) (hij : i ≤ j) : u ≤ v := by
  obtain ⟨hi0, hi⟩ := snapPoint_eq_some_iff.mp hi
  obtain ⟨hj0, hj⟩ := snapPoint_eq_some_iff.mp hj
  exact getElem?_le hsorted hi hj (by omega)

theorem snapPoint_pred {c : Prop} [Decidable c] {i : ℤ}
    (h : t.snapPoint i = some v) (hle : v ≤ pos) (hc : c → 0 < i) :
    ∃ u, t.snapPoint (if c then i - 1 else i) = some u ∧ u ≤ pos := by
  split
  · next hcond =>
    obtain ⟨-, hv⟩ := snapPoint_eq_some_iff.mp h
    have hpos := hc hcond
    have hlen := (List.getElem?_eq_some_iff.mp hv).1
    have hu := snapPoint_eq_some_iff.mpr ⟨Int.sub_nonneg_of_le hpos,
      List.getElem?_eq_getElem (l := t.snapPoints) (i := (i - 1).toNat) (by omega)⟩
    exact ⟨_, hu, (snapPoint_le hsorted hu h (by omega)).trans hle⟩
  · exact ⟨v, h, hle⟩

theorem snapPoint_succ {c : Prop} [Decidable c] {i : ℤ}
    (h : t.snapPoint i = some v) (hle : pos ≤ v) (hc : c → i < (t.snapPoints.length : ℤ) - 1) :
    ∃ u, t.snapPoint (if c then i + 1 else i) = some u ∧ pos ≤ u := by
  split
  · next hcond =>
    obtain ⟨hi, -⟩ := snapPoint_eq_some_iff.mp h
    have hlt := hc hcond
    have hu := snapPoint_eq_some_iff.mpr ⟨Int.le_add_one hi,
      List.getElem?_eq_getElem (l := t.snapPoints) (i := (i + 1).toNat) (by omega)⟩
    exact ⟨_, hu, hle.trans (snapPoint_le hsorted h hu (by omega))⟩
  · exact ⟨v, h, hle⟩

end

end Tracker

/-! ## The gesture -/

structure Inv (start : Tracker) (been : List ℚ) (t : Tracker) : Prop where
  points : t.snapPoints = start.snapPoints
  sorted : t.snapPoints.Pairwise (· ≤ ·)
  distance : 0 < t.distance
  mem : t.progress ∈ been
  first : ∃ v ∈ t.snapPoints, v ≤ t.progress
  last : ∃ v ∈ t.snapPoints, t.progress ≤ v
  peekedMin : ∃ v, t.snapPoint t.peekedMinSnapPoint = some v ∧ Low start been v ∧
    v ≤ start.initialProgress
  peekedMax : ∃ v, t.snapPoint t.peekedMaxSnapPoint = some v ∧ High start been v ∧
    start.initialProgress ≤ v

variable {start t t' : Tracker} {been : List ℚ}

theorem Inv.ne (h : Inv start been t) : t.snapPoints ≠ [] := by
  obtain ⟨v, hv, -⟩ := h.first
  exact List.ne_nil_of_mem hv

theorem confirmSwipe_peeked (t : Tracker) (distance : ℚ) {snapPoints : List ℚ} {currentProgress : ℚ}
    (cancelProgress : ℚ) (animatingTowardsProgress : Option ℚ)
    (hsorted : snapPoints.Pairwise (· ≤ ·)) (hfirst : ∃ v ∈ snapPoints, v ≤ currentProgress)
    (hlast : ∃ v ∈ snapPoints, currentProgress ≤ v) :
    let s := t.confirmSwipe distance snapPoints currentProgress cancelProgress
      animatingTowardsProgress
    s.snapPoints = snapPoints ∧ s.distance = distance ∧ s.initialProgress = currentProgress ∧
      s.progress = currentProgress ∧
      (∃ v, s.snapPoint s.peekedMinSnapPoint = some v ∧ v ≤ currentProgress) ∧
      ∃ v, s.snapPoint s.peekedMaxSnapPoint = some v ∧ currentProgress ≤ v := by
  -- the tracker before anything is peeked
  let t0 : Tracker := { t with
    distance := distance
    snapPoints := snapPoints
    initialProgress := currentProgress
    progress := currentProgress
    cancelProgress := cancelProgress }
  obtain ⟨u, hu, hprev⟩ := Tracker.findPreviousPoint_spec (t := t0) hsorted hfirst
  obtain ⟨w, hw, hnext⟩ := Tracker.findNextPoint_spec (t := t0) hsorted hlast
  exact ⟨rfl, rfl, rfl, rfl,
    Tracker.snapPoint_pred (t := t0) hsorted hu hprev.le fun hcond => hcond.2.1,
    Tracker.snapPoint_succ (t := t0) hsorted hw hnext.ge fun hcond => hcond.2.1⟩

theorem Inv.of_confirm (t : Tracker) {distance : ℚ} {snapPoints : List ℚ} {currentProgress : ℚ}
    (cancelProgress : ℚ) (animatingTowardsProgress : Option ℚ) (hdistance : 0 < distance)
    (hsorted : snapPoints.Pairwise (· ≤ ·)) (hfirst : ∃ v ∈ snapPoints, v ≤ currentProgress)
    (hlast : ∃ v ∈ snapPoints, currentProgress ≤ v) :
    let s := t.confirmSwipe distance snapPoints currentProgress cancelProgress
      animatingTowardsProgress
    Inv s [currentProgress] s := by
  obtain ⟨hpoints, hdist, hinitial, hprogress, ⟨u, hu, hule⟩, ⟨w, hw, hwle⟩⟩ :=
    confirmSwipe_peeked t distance cancelProgress animatingTowardsProgress hsorted hfirst hlast
  refine ⟨rfl, ?_, ?_, ?_, ?_, ?_, ⟨u, hu, .inl hu, ?_⟩, ⟨w, hw, .inl hw, ?_⟩⟩
  · rwa [hpoints]
  · rwa [hdist]
  · rw [hprogress]
    exact List.mem_singleton_self _
  · rwa [hpoints, hprogress]
  · rwa [hpoints, hprogress]
  · rwa [hinitial]
  · rwa [hinitial]

theorem updatePanGesture_eq {first last : ℚ} (hfirst : t.snapPoint 0 = some first)
    (hlast : t.snapPoint ((t.snapPoints.length : ℤ) - 1) = some last) (delta : ℚ) (isTouchpad : Bool) :
    t.updatePanGesture delta isTouchpad =
      some { t with
        peekedMinSnapPoint := min (t.findPreviousPoint
          (t.progress + delta / t.baseDistance isTouchpad)) t.peekedMinSnapPoint
        peekedMaxSnapPoint := max t.peekedMaxSnapPoint (t.findNextPoint
          (t.progress + delta / t.baseDistance isTouchpad))
        progress := clamp (t.progress + delta / t.baseDistance isTouchpad) first last } := by
  have hmin : ∀ a b : ℤ, (if a < b then a else b) = min a b := fun a b => by omega
  have hmax : ∀ a b : ℤ, (if a > b then a else b) = max b a := fun a b => by omega
  unfold Tracker.updatePanGesture
  dsimp only
  rw [hmin, hmax]
  show ((t.snapPoint 0).bind fun _ => (t.snapPoint ((t.snapPoints.length : ℤ) - 1)).bind _) = _
  rw [hfirst, hlast]
  rfl

theorem isPrev_clamp (hsorted : t.snapPoints.Pairwise (· ≤ ·)) {first last : ℚ}
    (hfirst : t.snapPoint 0 = some first) (hends : ∀ v ∈ t.snapPoints, first ≤ v ∧ v ≤ last)
    (hmem : first ∈ t.snapPoints) (pos : ℚ) : ∃ v, t.snapPoint (t.findPreviousPoint pos) = some v ∧
      IsPrev t.snapPoints (clamp pos first last) v := by
  have hle : first ≤ last := (hends first hmem).2
  by_cases hexists : ∃ v ∈ t.snapPoints, v ≤ pos
  · obtain ⟨v, hv, hprev⟩ := Tracker.findPreviousPoint_spec hsorted hexists
    obtain ⟨w, hw, hwle⟩ := hexists
    have hclamp : clamp pos first last = min pos last := by
      rw [clamp, max_eq_left ((hends w hw).1.trans hwle)]
    rw [hclamp]
    refine ⟨v, hv, hprev.mem, le_min hprev.le (hends v hprev.mem).2, fun u hu hule => ?_⟩
    exact hprev.last u hu (hule.trans (min_le_left _ _))
  · -- before the first point there is none, and the index is the first one
    push Not at hexists
    have hindex : t.findPreviousPoint pos = 0 := by
      rw [Tracker.findPreviousPoint, findLastIndex_of_not_mem fun v hv => by
        rw [decide_eq_true_eq]
        exact not_le.mpr (hexists v hv)]
      rfl
    have hclamp : clamp pos first last = first := by
      rw [clamp, max_eq_right (hexists first hmem).le, min_eq_left hle]
    rw [hindex, hclamp]
    exact ⟨first, hfirst, hmem, le_rfl, fun u _ hu => hu⟩

theorem isNext_clamp (hsorted : t.snapPoints.Pairwise (· ≤ ·)) {first last : ℚ}
    (hends : ∀ v ∈ t.snapPoints, first ≤ v ∧ v ≤ last) (pos : ℚ) :
    t.findNextPoint pos = -1 ∨ ∃ v, t.snapPoint (t.findNextPoint pos) = some v ∧
      IsNext t.snapPoints (clamp pos first last) v := by
  by_cases hexists : ∃ v ∈ t.snapPoints, pos ≤ v
  · right
    obtain ⟨v, hv, hnext⟩ := Tracker.findNextPoint_spec hsorted hexists
    have hfl := hends v hnext.mem
    have hclamp : clamp pos first last = max pos first := by
      rw [clamp, min_eq_left (max_le (hnext.ge.trans hfl.2) (hfl.1.trans hfl.2))]
    rw [hclamp]
    refine ⟨v, hv, hnext.mem, max_le hnext.ge hfl.1, fun u hu hule => ?_⟩
    exact hnext.first u hu ((le_max_left _ _).trans hule)
  · left
    push Not at hexists
    rw [Tracker.findNextPoint, findIndex_of_not_mem fun v hv => by
      rw [decide_eq_true_eq]
      exact not_le.mpr (hexists v hv)]

/-- **An update.** The peeked indices are extended by where it leads before that is clamped. -/
theorem Inv.update (h : Inv start been t) (delta : ℚ) (isTouchpad : Bool) :
    ∃ t', t.updatePanGesture delta isTouchpad = some t' ∧ Inv start (t'.progress :: been) t' := by
  obtain ⟨first, last, hfirst, hlast, hfmem, hlmem, hends⟩ := Tracker.snapPoint_ends h.ne h.sorted
  refine ⟨_, updatePanGesture_eq hfirst hlast delta isTouchpad, ?_⟩
  generalize t.progress + delta / t.baseDistance isTouchpad = pos
  obtain ⟨hlow, hhigh⟩ := clamp_mem (x := pos) (hends first hfmem).2
  obtain ⟨u, hu, hulow, hule⟩ := h.peekedMin
  obtain ⟨w, hw, hwhigh, hwle⟩ := h.peekedMax
  have hlater : ∀ {v}, Low start been v → Low start (clamp pos first last :: been) v := by
    rintro v (hv | ⟨p, hp, hv⟩)
    · exact .inl hv
    · exact .inr ⟨p, List.mem_cons_of_mem _ hp, hv⟩
  have hlater' : ∀ {v}, High start been v → High start (clamp pos first last :: been) v := by
    rintro v (hv | ⟨p, hp, hv⟩)
    · exact .inl hv
    · exact .inr ⟨p, List.mem_cons_of_mem _ hp, hv⟩
  refine ⟨h.points, h.sorted, h.distance, List.mem_cons_self, ⟨first, hfmem, hlow⟩,
    ⟨last, hlmem, hhigh⟩, ?_, ?_⟩
  · obtain ⟨v, hv, hprev⟩ := isPrev_clamp h.sorted hfirst hends hfmem pos
    rcases le_total (t.findPreviousPoint pos) t.peekedMinSnapPoint with hcmp | hcmp
    · refine ⟨v, ?_, .inr ⟨_, List.mem_cons_self, h.points ▸ hprev⟩, ?_⟩
      · show t.snapPoint (min _ _) = _
        rw [min_eq_left hcmp, hv]
      · exact (Tracker.snapPoint_le h.sorted hv hu hcmp).trans hule
    · refine ⟨u, ?_, hlater hulow, hule⟩
      show t.snapPoint (min _ _) = _
      rw [min_eq_right hcmp, hu]
  · have hkeep : ∀ i : ℤ, i ≤ t.peekedMaxSnapPoint →
        t.snapPoint (max t.peekedMaxSnapPoint i) = some w := by
      intro i hi
      rw [max_eq_left hi, hw]
    rcases isNext_clamp h.sorted hends pos with hnone | ⟨v, hv, hnext⟩
    · have hpos := (Tracker.snapPoint_eq_some_iff.mp hw).1
      exact ⟨w, hkeep _ (by omega), hlater' hwhigh, hwle⟩
    · rcases le_total (t.findNextPoint pos) t.peekedMaxSnapPoint with hcmp | hcmp
      · exact ⟨w, hkeep _ hcmp, hlater' hwhigh, hwle⟩
      · refine ⟨v, ?_, .inr ⟨_, List.mem_cons_self, h.points ▸ hnext⟩, ?_⟩
        · show t.snapPoint (max _ _) = _
          rw [max_eq_right hcmp, hv]
        · exact hwle.trans (Tracker.snapPoint_le h.sorted hw hv hcmp)

theorem Inv.of_gesture (h : Gesture start been t) : Inv start been t := by
  induction h with
  | confirm t cancelProgress animatingTowardsProgress hdistance hsorted hfirst hlast =>
    exact .of_confirm t cancelProgress animatingTowardsProgress hdistance hsorted hfirst hlast
  | update delta isTouchpad _ hupdate ih =>
    obtain ⟨t', ht', hinv⟩ := ih.update delta isTouchpad
    obtain rfl := Option.some.inj (hupdate.symm.trans ht')
    exact hinv

/-! ## The end -/

theorem clamped_duration {d : ℚ} (h : 0 ≤ d) : (if d > 0 then clamp d 100 400 else d) = 0 ∨
      100 ≤ (if d > 0 then clamp d 100 400 else d) ∧ (if d > 0 then clamp d 100 400 else d) ≤ 400 := by
  by_cases hpos : d > 0
  · right
    rw [if_pos hpos]
    exact clamp_mem (by norm_num)
  · left
    rw [if_neg hpos]
    exact le_antisymm (not_lt.mp hpos) h

theorem animateOutDuration_mem (t : Tracker) (endProgress velocity : ℚ) (isTouchpad : Bool) :
    t.animateOutDuration endProgress velocity isTouchpad = 0 ∨
      100 ≤ t.animateOutDuration endProgress velocity isTouchpad ∧
        t.animateOutDuration endProgress velocity isTouchpad ≤ 400 := by
  rw [Tracker.animateOutDuration]
  exact clamped_duration (abs_nonneg _)

/-- **Where the gesture ends.** A slow one ends at the point closest to where it is, and a fast one at a
point next to a position between those that were peeked. -/
theorem getEndProgress_spec (h : Inv start been t) (velocity : ℚ) (isTouchpad : Bool) :
    ∃ r, t.getEndProgress velocity isTouchpad = some r ∧ r ∈ start.snapPoints ∧
      (t.allowLongSwipes = false → (∃ v ≤ r, Low start been v) ∧ ∃ v, r ≤ v ∧ High start been v) := by
  unfold Tracker.getEndProgress
  dsimp only
  generalize (if isTouchpad = true then 6 / 10 else 3 / 10 : ℚ) = threshold
  by_cases hslow : |velocity| < threshold
  · rw [if_pos hslow]
    obtain ⟨r, hr, hbetween⟩ := Tracker.findClosestPoint_between h.ne t.progress
    obtain ⟨u, -, hprev⟩ := Tracker.findPreviousPoint_spec h.sorted h.first
    obtain ⟨w, -, hnext⟩ := Tracker.findNextPoint_spec h.sorted h.last
    refine ⟨r, hr, h.points ▸ hbetween.mem, fun _ => ⟨⟨u, ?_, ?_⟩, w, ?_, ?_⟩⟩
    · exact hbetween.low u hprev.mem hprev.le
    · exact .inr ⟨t.progress, h.mem, h.points ▸ hprev⟩
    · exact hbetween.high w hnext.mem hnext.ge
    · exact .inr ⟨t.progress, h.mem, h.points ▸ hnext⟩
  · rw [if_neg hslow]
    generalize Tracker.projection velocity isTouchpad * Tracker.sign velocity + t.progress = pos
    -- both bounds are snap points, so that there are points on both sides of the clamped position
    have hclamped : ∀ lower upper, lower ∈ t.snapPoints → upper ∈ t.snapPoints → lower ≤ upper →
        ∃ r, t.snapPoint (t.findPointForProjection (clamp pos lower upper) velocity) = some r ∧
          r ∈ t.snapPoints ∧ lower ≤ r ∧ r ≤ upper := by
      intro lower upper hlower hupper hle
      obtain ⟨hlow, hhigh⟩ := clamp_mem (x := pos) hle
      obtain ⟨r, hr, hbetween⟩ := Tracker.findPointForProjection_between h.sorted velocity
        ⟨lower, hlower, hlow⟩ ⟨upper, hupper, hhigh⟩
      exact ⟨r, hr, hbetween.mem, hbetween.low lower hlower hlow, hbetween.high upper hupper hhigh⟩
    cases hlong : t.allowLongSwipes with
    | true =>
      obtain ⟨first, last, hfirst, hlast, hfmem, hlmem, hends⟩ :=
        Tracker.snapPoint_ends h.ne h.sorted
      obtain ⟨r, hr, hmem, -⟩ := hclamped first last hfmem hlmem (hends first hfmem).2
      refine ⟨r, ?_, h.points ▸ hmem, fun hno => by cases hno⟩
      show ((t.snapPoint 0).bind fun _ => (t.snapPoint _).bind _) = _
      rw [hfirst]
      show (t.snapPoint _).bind _ = _
      rw [hlast]
      exact hr
    | false =>
      obtain ⟨u, hu, hlow, hule⟩ := h.peekedMin
      obtain ⟨w, hw, hhigh, hwle⟩ := h.peekedMax
      obtain ⟨r, hr, hmem, hlower, hupper⟩ := hclamped u w (Tracker.snapPoint_mem hu)
        (Tracker.snapPoint_mem hw) (hule.trans hwle)
      refine ⟨r, ?_, h.points ▸ hmem, fun _ => ⟨⟨u, hlower, hlow⟩, w, hupper, hhigh⟩⟩
      show ((t.snapPoint t.peekedMinSnapPoint).bind fun _ => (t.snapPoint _).bind _) = _
      rw [hu]
      show (t.snapPoint t.peekedMaxSnapPoint).bind _ = _
      rw [hw]
      exact hr

theorem getAnimateOutParams_endsWell (h : Inv start been t) (velocity : ℚ) (isTouchpad : Bool) :
    ∃ e, t.getAnimateOutParams velocity isTouchpad = some e ∧ EndsWell start been t e := by
  obtain ⟨r, hr, hmem, hbounds⟩ := getEndProgress_spec h velocity isTouchpad
  refine ⟨(t.animateOutDuration r velocity isTouchpad, r), ?_, hmem,
    animateOutDuration_mem t r velocity isTouchpad, fun hno => (hbounds hno).1,
    fun hno => (hbounds hno).2⟩
  rw [Tracker.getAnimateOutParams, hr]
  rfl

theorem EndsWell.of_duration {e : ℚ × ℚ} (h : EndsWell start been t e) {d : ℚ}
    (hd : d = 0 ∨ 100 ≤ d ∧ d ≤ 400) : EndsWell start been t (d, e.2) :=
  ⟨h.snaps, hd, h.low, h.high⟩

theorem endGesture_endsWell {start' : Tracker} {been' : List ℚ} (h : Gesture start been t)
    (velocity : ℚ) (isTouchpad : Bool) (other : Option Other)
    (hother : ∀ o ∈ other, Gesture start' been' o.tracker) :
    ∃ ends, t.endGesture velocity isTouchpad other = some ends ∧
      (∀ e ∈ ends.ours, EndsWell start been t e) ∧
      ∀ o ∈ other, ∀ e ∈ ends.others, EndsWell start' been' o.tracker e := by
  have hinv := Inv.of_gesture h
  have hours := fun v => getAnimateOutParams_endsWell hinv v isTouchpad
  -- the gesture ends alone
  have halone : ∃ e, (do return ⟨some (← t.getAnimateOutParams velocity isTouchpad), none⟩ :
      Option Ends) = some ⟨some e, none⟩ ∧ EndsWell start been t e := by
    obtain ⟨e, he, hwell⟩ := hours velocity
    rw [he]
    exact ⟨e, rfl, hwell⟩
  cases other with
  | none =>
    obtain ⟨e, he, hwell⟩ := halone
    exact ⟨_, he, fun e' he' => Option.some.inj he' ▸ hwell, fun o ho => by cases ho⟩
  | some o =>
    unfold Tracker.endGesture
    dsimp only
    cases o.recognizing with
    | true =>
      refine ⟨⟨none, none⟩, if_pos rfl, ?_, ?_⟩
      · intro e he
        cases he
      · intro o' _ e he
        cases he
    | false =>
      rw [if_neg Bool.false_ne_true]
      cases o.ended with
      | none =>
        obtain ⟨e, he, hwell⟩ := halone
        exact ⟨_, he, fun e' he' => Option.some.inj he' ▸ hwell, fun o' _ e' he' => by cases he'⟩
      | some ended =>
        -- both end, and the longer duration is that of both
        obtain ⟨endVelocity, endIsTouchpad⟩ := ended
        dsimp only
        generalize (decide (|velocity| < |endVelocity|)) = slower
        obtain ⟨e, he, hwell⟩ := hours (if slower = true then 0 else velocity)
        obtain ⟨e', he', hwell'⟩ := getAnimateOutParams_endsWell (Inv.of_gesture (hother o rfl))
          (if slower = true then endVelocity else 0) endIsTouchpad
        have hlonger : (if e.1 > e'.1 then e.1 else e'.1) = 0 ∨
            100 ≤ (if e.1 > e'.1 then e.1 else e'.1) ∧ (if e.1 > e'.1 then e.1 else e'.1) ≤ 400 := by
          split
          · exact hwell.duration
          · exact hwell'.duration
        rw [he, he']
        refine ⟨_, rfl, ?_, ?_⟩
        · intro d hd
          obtain rfl := Option.some.inj hd
          exact hwell.of_duration hlonger
        · intro o' ho' d hd
          obtain rfl := Option.some.inj ho'
          obtain rfl := Option.some.inj hd
          exact hwell'.of_duration hlonger

/-- **Every gesture.** The peeked indices are in the array, an update is always possible, and the end is
as it is meant to be. -/
theorem gesture_endsWell {start' : Tracker} {been' : List ℚ} (h : Gesture start been t)
    (velocity : ℚ) (isTouchpad : Bool) (other : Option Other)
    (hother : ∀ o ∈ other, Gesture start' been' o.tracker) :
    (t.snapPoint t.peekedMinSnapPoint).isSome ∧ (t.snapPoint t.peekedMaxSnapPoint).isSome ∧
      (∀ delta isTouchpad, (t.updatePanGesture delta isTouchpad).isSome) ∧
      ∃ ends, t.endGesture velocity isTouchpad other = some ends ∧
        (∀ e ∈ ends.ours, EndsWell start been t e) ∧
        ∀ o ∈ other, ∀ e ∈ ends.others, EndsWell start' been' o.tracker e := by
  have hinv := Inv.of_gesture h
  obtain ⟨u, hu, -⟩ := hinv.peekedMin
  obtain ⟨w, hw, -⟩ := hinv.peekedMax
  refine ⟨?_, ?_, fun delta isTouchpad => ?_, endGesture_endsWell h velocity isTouchpad other hother⟩
  · rw [hu]
    rfl
  · rw [hw]
    rfl
  · obtain ⟨t', ht', -⟩ := hinv.update delta isTouchpad
    rw [ht']
    rfl

def halfway : Tracker := Tracker.confirmSwipe ⟨false, false, -1, [], 0, 0, 0, 0, 0⟩ 100 [0, 1, 2]
  (1 / 2) 0 (some 1)

theorem gesture_halfway : Gesture halfway [1 / 2] halfway :=
  .confirm _ 0 (some 1) (by decide) (by decide +kernel) (by decide +kernel) (by decide +kernel)

/-- Both dimensions end halfway, this one faster. -/
theorem gesture_endsWell_halfway : (halfway.snapPoint halfway.peekedMinSnapPoint).isSome ∧
      (halfway.snapPoint halfway.peekedMaxSnapPoint).isSome ∧
      (∀ delta isTouchpad, (halfway.updatePanGesture delta isTouchpad).isSome) ∧
      ∃ ends, halfway.endGesture 3 false (some ⟨halfway, false, some (1, true)⟩) = some ends ∧
        (∀ e ∈ ends.ours, EndsWell halfway [1 / 2] halfway e) ∧
        ∀ o ∈ some (⟨halfway, false, some (1, true)⟩ : Other), ∀ e ∈ ends.others,
          EndsWell halfway [1 / 2] o.tracker e :=
  gesture_endsWell gesture_halfway 3 false _ fun _ ho => Option.some.inj ho ▸ gesture_halfway

def still : Tracker := Tracker.confirmSwipe ⟨false, false, -1, [], 0, 0, 0, 0, 0⟩ 100 [0, 1, 2]
  (1 / 2) (1 / 2) none

theorem gesture_still : Gesture still [1 / 2] still :=
  .confirm _ (1 / 2) none (by decide) (by decide +kernel) (by decide +kernel) (by decide +kernel)

/-- Dragged past the next point of the start, it ends at the one after that. -/
theorem not_within_start : ∃ start been t e, Gesture start been t ∧ t.allowLongSwipes = false ∧
    t.endGesture 0 false none = some ⟨some e, none⟩ ∧
      ∃ v, IsNext start.snapPoints start.initialProgress v ∧ v < e.2 := by
  have hdragged : (still.updatePanGesture 125 false).map
      (fun t => (t.allowLongSwipes, t.endGesture 0 false none)) =
        some (false, some ⟨some (375, 2), none⟩) := by decide +kernel
  obtain ⟨t, ht, hend⟩ := Option.map_eq_some_iff.mp hdragged
  obtain ⟨hlong, hend⟩ := Prod.mk.inj hend
  refine ⟨still, _, t, _, gesture_still.update 125 false ht, hlong, hend, 1, ?_, by norm_num⟩
  exact ⟨by decide +kernel, by decide +kernel, by decide +kernel⟩

end SwipeTracker
