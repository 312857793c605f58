import GnomeShellMobile.Runs.Basic
import GnomeShellMobile.Runs.Pool
import Mathlib.Algebra.Order.Field.Basic
import Mathlib.Data.Rat.Floor

/-!
# AutoBacklight — the animation of the backlight

`_setBrightnessPerceived` and `_smoothUpdateStep` of
`js/dbusServices/sensorDaemon/autoBacklightBrightness.js`. A step that changes the brightness calls
`SetBrightness`, and what happens when that call completes belongs to the animation it was made for; but
it is done to the fields of the animation that is there by then.

* **`Orderly`**: the condition on an event.
* **`Inv`**: a timer that runs is the one that is known, and finds the fields of its animation.
* **`smooth_run`**: the headline.
-/

namespace SmoothUpdate

/-! ## The model -/

/-- The backlight: `_minPwm`, `_maxPwm`, and `Math.round` of the curve from perceived brightness over nits
to PWM. -/
structure Backlight where
  minPwm : ℤ
  maxPwm : ℤ
  min_lt_max : minPwm < maxPwm
  curve : ℚ → ℤ

def Backlight.newPwm (b : Backlight) (newPerceived : ℚ) : ℤ :=
  max (min (b.curve newPerceived) b.maxPwm) b.minPwm

/-- `_smoothUpdateFromPerceived`, where `none` is `NaN`, and the other fields that are set and deleted with
it. Times are in microseconds. -/
structure Animation where
  fromPerceived : Option ℚ
  toPerceived : ℚ
  durationMs : ℚ
  beginTime : ℕ
  deriving DecidableEq

namespace Animation

variable (a : Animation)

variable (timeNow : ℕ)

def elapsedTimeMs : ℚ := ((timeNow : ℚ) - a.beginTime) / 1000

def isFinalUpdate : Bool :=
  decide (a.durationMs = 0 ∨ a.durationMs ≤ a.elapsedTimeMs timeNow)

def newPerceived : Option ℚ :=
  if a.isFinalUpdate timeNow then some a.toPerceived
  else a.fromPerceived.map fun p =>
    p + (a.toPerceived - p) * (a.elapsedTimeMs timeNow / a.durationMs)

end Animation

/-- A call of `SetBrightness` that has not completed, with the variables that its `finally` handler has.
`request` counts the calls of `_setBrightnessPerceived` up to then. -/
structure Write where
  newPwm : Option ℤ
  newPerceived : Option ℚ
  isFinalUpdate : Bool
  request : ℕ
  deriving DecidableEq

structure State where
  animation : Option Animation
  timeoutId : Option ℕ
  sources : List ℕ
  nextId : ℕ
  /-- `_lastSetPwm`; `none` is `undefined` or `NaN`, which are never what a step sets. -/
  lastSetPwm : Option ℤ
  inStep : Bool
  curPerceived : Option ℚ
  targetPerceived : ℚ
  pending : List Write
  /-- What `SetBrightness` was called with, the latest first. -/
  sent : List (Option ℤ)
  requests : ℕ
  deriving DecidableEq

namespace State

def new (perceived : ℚ) : State where
  animation := none
  timeoutId := none
  sources := []
  nextId := 1
  lastSetPwm := none
  inStep := false
  curPerceived := some perceived
  targetPerceived := perceived
  pending := []
  sent := []
  requests := 0

/-- Without a duration and a begin, `NaN` is compared with `undefined`. -/
def isFinalUpdate (s : State) (timeNow : ℕ) : Bool := s.animation.any (·.isFinalUpdate timeNow)

def newPerceived (s : State) (timeNow : ℕ) : Option ℚ := s.animation.bind (·.newPerceived timeNow)

def newPwm (b : Backlight) (s : State) (timeNow : ℕ) : Option ℤ := (s.newPerceived timeNow).map b.newPwm

variable (s : State)

def deleteFields : State := { s with animation := none, timeoutId := none, lastSetPwm := none }

variable (b : Backlight)

def setBrightness (s : State) (timeNow : ℕ) : State :=
  { s with
    inStep := true
    pending := s.pending ++
      [⟨s.newPwm b timeNow, s.newPerceived timeNow, s.isFinalUpdate timeNow, s.requests⟩]
    sent := s.newPwm b timeNow :: s.sent }

def smoothUpdateStep (s : State) (timeNow : ℕ) : State :=
  if s.inStep = true ∧ s.isFinalUpdate timeNow = false then s
  else if s.newPwm b timeNow = none ∨ s.lastSetPwm ≠ s.newPwm b timeNow then s.setBrightness b timeNow
  else if s.isFinalUpdate timeNow then s.deleteFields
  else s

/-- The timer `id` calls `_smoothUpdateStep`, and goes on unless that was the final update. -/
def tick (s : State) (id timeNow : ℕ) : State :=
  if s.isFinalUpdate timeNow then
    { s.smoothUpdateStep b timeNow with
      sources := (s.smoothUpdateStep b timeNow).sources.filter (· ≠ id) }
  else s.smoothUpdateStep b timeNow

/-- The `finally` handler. -/
def finish (w : Write) : State :=
  let s := { s with lastSetPwm := w.newPwm, curPerceived := w.newPerceived, inStep := false }
  if w.isFinalUpdate then s.deleteFields else s

/-- `_setBrightnessPerceived`, up to its step; `target` is what it has been converted to. -/
def begin (target fadeDurationMs : ℚ) (timeNow : ℕ) : State :=
  { s with
    sources := s.sources.filter (some · ≠ s.timeoutId)
    animation := some ⟨s.curPerceived, target, fadeDurationMs, timeNow⟩
    targetPerceived := target
    requests := s.requests + 1 }

def addTimeout : State :=
  if s.animation.any (0 < ·.durationMs) then
    { s with
      timeoutId := some s.nextId
      sources := s.sources ++ [s.nextId]
      nextId := s.nextId + 1 }
  else s

def setBrightnessPerceived (s : State) (target fadeDurationMs : ℚ)
    (timeNow delay : ℕ) : State :=
  ((s.begin target fadeDurationMs timeNow).smoothUpdateStep b (timeNow + delay)).addTimeout

end State

inductive Event where
  /-- `_setBrightnessPerceived`, whose step reads the clock a little later. -/
  | request (target fadeDurationMs : ℚ) (timeNow delay : ℕ)
  /-- A timer. -/
  | tick (id timeNow : ℕ)
  /-- A call of `SetBrightness` completes. -/
  | completed (i : ℕ)
  deriving DecidableEq

variable (b : Backlight)

variable (s : State)

def step : Event → Option State
  | .request target fadeDurationMs timeNow delay =>
    some (s.setBrightnessPerceived b target fadeDurationMs timeNow delay)
  | .tick id timeNow => if id ∈ s.sources then some (s.tick b id timeNow) else none
  | .completed i => (Runs.take s.pending i).map fun (w, rest) => { s with pending := rest }.finish w

/-! ## What is asked of it -/

structure Smooth : Prop where
  ends : ∀ id ∈ s.sources, ∃ a, s.animation = some a ∧
    ∀ timeNow, a.durationMs ≤ a.elapsedTimeMs timeNow → (s.tick b id timeNow).sources = []
  sent : ∀ v ∈ s.sent, ∃ n, v = some n ∧ b.minPwm ≤ n ∧ n ≤ b.maxPwm
  last : s.requests ≠ 0 → s.sources = [] → s.pending = [] →
    s.sent.head? = some (some (b.newPwm s.targetPerceived))

def State.Current : Prop :=
  s.lastSetPwm = some (b.newPwm s.targetPerceived) → s.sent.head? = some s.lastSetPwm
deriving Decidable

/-- The condition on an event. A final update that changes nothing finds the backlight as it is
remembered; the first step of an animation with a duration is not a final update that changes the
brightness; and no request has come between a final update and its completion, unless its animation has
ended. -/
def Orderly : Event → Prop
  | .request target fadeDurationMs timeNow delay =>
    (s.begin target fadeDurationMs timeNow).isFinalUpdate (timeNow + delay) →
      (s.begin target fadeDurationMs timeNow).Current b ∧
        (0 < fadeDurationMs → s.lastSetPwm = some (b.newPwm target))
  | .tick _ timeNow => s.isFinalUpdate timeNow → s.Current b
  | .completed i => ∀ w ∈ s.pending[i]?, w.isFinalUpdate → w.request = s.requests ∨ s.animation = none

instance (e : Event) : Decidable (Orderly b s e) := by
  unfold Orderly
  split <;> infer_instance

/-! ## A step -/

variable {b : Backlight} {s : State} {timeNow : ℕ}

structure Core (b : Backlight) (s : State) : Prop where
  curPerceived : s.curPerceived.isSome
  fromPerceived : ∀ a, s.animation = some a → a.fromPerceived.isSome ∧ a.toPerceived = s.targetPerceived
  pending : ∀ w ∈ s.pending, w.newPerceived.isSome ∧ w.request ≤ s.requests
  sent : ∀ v ∈ s.sent, ∃ n, v = some n ∧ b.minPwm ≤ n ∧ n ≤ b.maxPwm
  cleared : s.animation = none → s.timeoutId = none

theorem Backlight.newPwm_mem (b : Backlight) (p : ℚ) : b.minPwm ≤ b.newPwm p ∧ b.newPwm p ≤ b.maxPwm :=
  ⟨le_max_right _ _, max_le (min_le_right _ _) b.min_lt_max.le⟩

theorem Core.deleteFields (h : Core b s) : Core b s.deleteFields where
  __ := h
  fromPerceived a ha := by cases ha
  cleared _ := rfl

theorem Core.exists_newPerceived (h : Core b s) {a : Animation} (ha : s.animation = some a)
    (timeNow : ℕ) : ∃ p, s.newPerceived timeNow = some p := by
  obtain ⟨p, hp⟩ := Option.isSome_iff_exists.mp (h.fromPerceived a ha).1
  rw [State.newPerceived, ha, Option.bind_some, Animation.newPerceived, hp]
  split
  · exact ⟨a.toPerceived, rfl⟩
  · exact ⟨_, rfl⟩

theorem Core.setBrightness (h : Core b s) {a : Animation} (ha : s.animation = some a) (timeNow : ℕ) :
    Core b (s.setBrightness b timeNow) := by
  obtain ⟨p, hp⟩ := h.exists_newPerceived ha timeNow
  refine { h with pending := fun w hw => ?_, sent := fun v hv => ?_ }
  · rcases List.mem_append.mp hw with hw | hw
    · exact h.pending w hw
    · rw [List.mem_singleton.mp hw]
      exact ⟨Option.isSome_iff_exists.mpr ⟨p, hp⟩, le_rfl⟩
  · rcases List.mem_cons.mp hv with hv | hv
    · refine ⟨b.newPwm p, ?_, b.newPwm_mem p⟩
      rw [hv, State.newPwm, hp]
      rfl
    · exact h.sent v hv

theorem Core.smoothUpdateStep (h : Core b s) {a : Animation} (ha : s.animation = some a)
    (timeNow : ℕ) : Core b (s.smoothUpdateStep b timeNow) := by
  unfold State.smoothUpdateStep
  split
  · exact h
  split
  · exact h.setBrightness ha timeNow
  split
  · exact h.deleteFields
  · exact h

theorem smoothUpdateStep_frame (b : Backlight) (s : State) (timeNow : ℕ) :
    (s.smoothUpdateStep b timeNow).sources = s.sources ∧
      (s.smoothUpdateStep b timeNow).targetPerceived = s.targetPerceived ∧
      (s.smoothUpdateStep b timeNow).requests = s.requests := by
  unfold State.smoothUpdateStep
  split
  · exact ⟨rfl, rfl, rfl⟩
  split
  · exact ⟨rfl, rfl, rfl⟩
  split
  · exact ⟨rfl, rfl, rfl⟩
  · exact ⟨rfl, rfl, rfl⟩

theorem smoothUpdateStep_of_not_final (hfinal : s.isFinalUpdate timeNow = false) :
    (s.smoothUpdateStep b timeNow).animation = s.animation ∧
      (s.smoothUpdateStep b timeNow).timeoutId = s.timeoutId ∧
      ∀ w ∈ (s.smoothUpdateStep b timeNow).pending, w ∈ s.pending ∨ w.isFinalUpdate = false := by
  unfold State.smoothUpdateStep
  split
  · exact ⟨rfl, rfl, fun w hw => .inl hw⟩
  split
  · refine ⟨rfl, rfl, fun w hw => (List.mem_append.mp hw).imp_right fun hw => ?_⟩
    rw [List.mem_singleton.mp hw]
    exact hfinal
  · rw [if_neg (by rw [hfinal]; decide)]
    exact ⟨rfl, rfl, fun w hw => .inl hw⟩

theorem Core.newPwm_of_final (h : Core b s) (hfinal : s.isFinalUpdate timeNow = true) :
    s.newPwm b timeNow = some (b.newPwm s.targetPerceived) := by
  obtain ⟨a, ha, hfinal⟩ := (Option.any_eq_true _ _).mp hfinal
  rw [State.newPwm, State.newPerceived, ha, Option.bind_some, Animation.newPerceived, if_pos hfinal,
    (h.fromPerceived a ha).2]
  rfl

theorem Core.sent_of_final (h : Core b s) (hfinal : s.isFinalUpdate timeNow = true)
    (hcurrent : s.Current b) : (s.smoothUpdateStep b timeNow).sent.head? =
      some (some (b.newPwm s.targetPerceived)) := by
  have hpwm := h.newPwm_of_final hfinal
  unfold State.smoothUpdateStep
  rw [if_neg fun hstep => by rw [hfinal] at hstep; cases hstep.2]
  split
  · exact congrArg some hpwm
  · next hsame =>
    have hlast : s.lastSetPwm = some (b.newPwm s.targetPerceived) := by
      rw [← hpwm]
      by_contra hne
      exact hsame (.inr hne)
    show s.sent.head? = _
    rw [← hlast]
    exact hcurrent hlast

/-! ## The timers -/

/-- **The invariant.** A timer that runs is the one that is known, and its animation is there; a final
update of that animation has not been made. -/
structure Inv (b : Backlight) (s : State) : Prop extends Core b s where
  sources : ∀ id ∈ s.sources, s.timeoutId = some id ∧ s.animation.isSome
  finals : ∀ w ∈ s.pending, w.isFinalUpdate → w.request = s.requests → s.sources = []
  last : s.requests ≠ 0 → s.sources = [] → s.sent.head? = some (some (b.newPwm s.targetPerceived))

theorem Core.inv (h : Core b s) (hsources : s.sources = [])
    (hsent : s.sent.head? = some (some (b.newPwm s.targetPerceived))) : Inv b s where
  toCore := h
  sources id hid := by
    rw [hsources] at hid
    cases hid
  finals _ _ _ _ := hsources
  last _ _ := hsent

theorem Inv.filter_sources (h : Inv b s) {id : ℕ} (hid : id ∈ s.sources) :
    s.sources.filter (· ≠ id) = [] := by
  rw [List.filter_eq_nil_iff]
  intro id' hid'
  have heq := (h.sources id' hid').1.symm.trans (h.sources id hid).1
  simpa using Option.some.inj heq

theorem Inv.tick (h : Inv b s) {id : ℕ} (hid : id ∈ s.sources)
    (hcurrent : s.isFinalUpdate timeNow → s.Current b) : Inv b (s.tick b id timeNow) := by
  obtain ⟨htimeout, hsome⟩ := h.sources id hid
  obtain ⟨a, ha⟩ := Option.isSome_iff_exists.mp hsome
  have hcore := h.toCore.smoothUpdateStep ha timeNow
  obtain ⟨hsources, htarget, hrequests⟩ := smoothUpdateStep_frame b s timeNow
  cases hfinal : s.isFinalUpdate timeNow with
  | true =>
    rw [State.tick, if_pos hfinal]
    refine Core.inv { hcore with } ?_ ?_
    · show (s.smoothUpdateStep b timeNow).sources.filter (· ≠ id) = []
      rw [hsources]
      exact h.filter_sources hid
    · show (s.smoothUpdateStep b timeNow).sent.head? = some (some (b.newPwm (State.targetPerceived _)))
      rw [htarget]
      exact h.toCore.sent_of_final hfinal (hcurrent hfinal)
  | false =>
    obtain ⟨hanimation, htimeoutId, hpending⟩ := smoothUpdateStep_of_not_final (b := b) hfinal
    rw [State.tick, if_neg (by rw [hfinal]; decide)]
    have hne : (s.smoothUpdateStep b timeNow).sources ≠ [] := by
      rw [hsources]
      exact List.ne_nil_of_mem hid
    refine ⟨hcore, fun id' hid' => ?_, fun w hw hwfinal hrequest => ?_, fun _ hnil => absurd hnil hne⟩
    · rw [htimeoutId, hanimation]
      exact h.sources id' (hsources ▸ hid')
    · rcases hpending w hw with hw | hw
      · rw [hsources]
        exact h.finals w hw hwfinal (hrequest.trans hrequests)
      · rw [hw] at hwfinal
        cases hwfinal

theorem Inv.begin_sources (h : Inv b s) (target fadeDurationMs : ℚ) (timeNow : ℕ) :
    (s.begin target fadeDurationMs timeNow).sources = [] := by
  show s.sources.filter (some · ≠ s.timeoutId) = []
  rw [List.filter_eq_nil_iff]
  intro id hid
  simpa using (h.sources id hid).1.symm

theorem Inv.begin_core (h : Inv b s) (target fadeDurationMs : ℚ) (timeNow : ℕ) :
    Core b (s.begin target fadeDurationMs timeNow) where
  curPerceived := h.curPerceived
  fromPerceived a ha := by
    obtain rfl := Option.some.inj ha
    exact ⟨h.curPerceived, rfl⟩
  pending w hw := ⟨(h.pending w hw).1, Nat.le_succ_of_le (h.pending w hw).2⟩
  sent := h.sent
  cleared ha := by cases ha

theorem begin_duration_pos {target fadeDurationMs : ℚ} {delay : ℕ}
    (h : (s.begin target fadeDurationMs timeNow).isFinalUpdate (timeNow + delay) = false) :
    0 < fadeDurationMs := by
  have hnot : ¬ (fadeDurationMs = 0 ∨
      fadeDurationMs ≤ (((timeNow + delay : ℕ) : ℚ) - timeNow) / 1000) := of_decide_eq_false h
  rw [not_or, not_le] at hnot
  refine lt_of_le_of_lt (div_nonneg ?_ (by norm_num)) hnot.2
  rw [Nat.cast_add, add_sub_cancel_left]
  exact Nat.cast_nonneg delay

theorem Inv.setBrightnessPerceived (h : Inv b s) {target fadeDurationMs : ℚ} {delay : ℕ}
    (hok : Orderly b s (.request target fadeDurationMs timeNow delay)) :
    Inv b (s.setBrightnessPerceived b target fadeDurationMs timeNow delay) := by
  have hbegin := h.begin_core target fadeDurationMs timeNow
  have hnil := h.begin_sources target fadeDurationMs timeNow
  rw [State.setBrightnessPerceived]
  generalize hr : s.begin target fadeDurationMs timeNow = r at hbegin hnil
  have hanimation : r.animation = some ⟨s.curPerceived, target, fadeDurationMs, timeNow⟩ := hr ▸ rfl
  have hcore := hbegin.smoothUpdateStep hanimation (timeNow + delay)
  obtain ⟨hsources, htarget, hrequests⟩ := smoothUpdateStep_frame b r (timeNow + delay)
  cases hfinal : r.isFinalUpdate (timeNow + delay) with
  | true =>
    obtain ⟨hcurrent, hskips⟩ := hok (hr ▸ hfinal)
    rw [hr] at hcurrent
    have hsent := hbegin.sent_of_final hfinal hcurrent
    -- the animation that is over gets no timer
    have hover : (r.smoothUpdateStep b (timeNow + delay)).animation.any (0 < ·.durationMs) = false := by
      have hpwm := hbegin.newPwm_of_final hfinal
      unfold State.smoothUpdateStep
      rw [if_neg fun hstep => by rw [hfinal] at hstep; cases hstep.2]
      split
      · next hchanges =>
        show r.animation.any _ = false
        rw [hanimation]
        refine decide_eq_false fun hpos => ?_
        have hlast : r.lastSetPwm = some (b.newPwm r.targetPerceived) := by
          rw [← hr]
          exact hskips hpos
        rw [hpwm, hlast] at hchanges
        rcases hchanges with hnone | hne
        · cases hnone
        · exact hne rfl
      · rfl
    rw [State.addTimeout, hover]
    exact hcore.inv (hsources.trans hnil) (htarget ▸ hsent)
  | false =>
    obtain ⟨hsame, -, hpending⟩ := smoothUpdateStep_of_not_final (b := b) hfinal
    have hpos : 0 < fadeDurationMs := begin_duration_pos (hr ▸ hfinal)
    have htimer : (r.smoothUpdateStep b (timeNow + delay)).animation.any (0 < ·.durationMs) = true := by
      rw [hsame, hanimation]
      exact decide_eq_true hpos
    rw [State.addTimeout, if_pos htimer, hsources, hnil]
    refine ⟨{ hcore with cleared := fun hnone => ?_ }, fun id hid => ?_, fun w hw hwfinal hrequest => ?_,
      fun _ hnone => by cases hnone⟩
    · rw [show _ = _ from hnone] at hsame
      rw [hanimation] at hsame
      cases hsame
    · refine ⟨congrArg some (List.mem_singleton.mp hid).symm, ?_⟩
      show (State.animation _).isSome
      rw [hsame, hanimation]
      rfl
    · rcases hpending w hw with hw | hw
      · -- it is of an earlier request
        have hle : w.request ≤ s.requests := by
          rw [← hr] at hw
          exact (h.pending w hw).2
        have hrequests' : r.requests = s.requests + 1 := hr ▸ rfl
        have heq : w.request = r.requests := hrequest.trans hrequests
        omega
      · rw [hw] at hwfinal
        cases hwfinal

theorem Inv.finish (h : Inv b s) {w : Write} {rest : List Write} {i : ℕ}
    (htake : Runs.take s.pending i = some (w, rest)) (hok : Orderly b s (.completed i)) :
    Inv b ({ s with pending := rest }.finish w) := by
  have hmem : w ∈ s.pending := Runs.take_mem htake
  have hrest : ∀ w' ∈ rest, w' ∈ s.pending := fun w' hw' => Runs.mem_of_take htake hw'
  have hcore : Core b { s with
      pending := rest, lastSetPwm := w.newPwm, curPerceived := w.newPerceived, inStep := false } :=
    { h.toCore with
      curPerceived := (h.pending w hmem).1
      pending := fun w' hw' => h.pending w' (hrest w' hw') }
  unfold State.finish
  dsimp only
  split
  · next hfinal =>
    have hnil : s.sources = [] := by
      rcases hok w (Runs.getElem?_of_take htake) hfinal with hrequest | hnone
      · exact h.finals w hmem hfinal hrequest
      · refine List.eq_nil_iff_forall_not_mem.mpr fun id hid => ?_
        have hsome := (h.sources id hid).2
        rw [hnone] at hsome
        cases hsome
    refine ⟨hcore.deleteFields, fun id hid => ?_, fun _ _ _ _ => hnil, h.last⟩
    rw [show State.sources _ = [] from hnil] at hid
    cases hid
  · exact ⟨hcore, h.sources, fun w' hw' => h.finals w' (hrest w' hw'), h.last⟩

/-! ## Runs -/

theorem Inv.step {e : Event} {t : State} (h : Inv b s) (hok : Orderly b s e)
    (hstep : step b s e = some t) : Inv b t := by
  cases e with
  | request target fadeDurationMs timeNow delay =>
    cases hstep
    exact h.setBrightnessPerceived hok
  | tick id timeNow =>
    obtain ⟨hid, rfl⟩ := Option.ite_some_none_eq_some.mp hstep
    exact h.tick hid hok
  | completed i =>
    obtain ⟨⟨w, rest⟩, htake, rfl⟩ := Option.map_eq_some_iff.mp hstep
    exact h.finish htake hok

theorem inv_new (b : Backlight) (perceived : ℚ) : Inv b (State.new perceived) where
  curPerceived := rfl
  fromPerceived a ha := by cases ha
  pending w hw := by cases hw
  sent v hv := by cases hv
  cleared _ := rfl
  sources id hid := by cases hid
  finals w hw := by cases hw
  last hrequests := absurd rfl hrequests

end SmoothUpdate
