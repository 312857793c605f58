import GnomeShellMobile.Runs.Basic
import Mathlib.Algebra.Order.Ring.Int

/-!
# SensorDaemon — the screen is off near the ear

`js/dbusServices/sensorDaemon/proximityMonitoring.js`. Calls start and stop the monitoring at once,
but the sensor is claimed later (`State.claimSettled`).

* `Sound`: what a claim that nobody wants any more breaks (`Sound.step_iff`).
* Runs: `run_claims_iff` and, where no claim is pending, `run_monitoring`.
-/

namespace ProximityMonitoring

/-- The proxy of `net.hadess.SensorProxy`. -/
structure SensorProxy where
  hasProximity : Bool
  proximityNear : Bool
deriving DecidableEq

structure State where
  enableCount : ℤ
  claimedSensor : Bool
  screenOff : Bool
  /-- The calls of `claimProximity` that are awaited. -/
  claiming : ℕ
  /-- The claims of the daemon: those that succeeded, less those that were released. -/
  claims : ℤ
  proxy : Option SensorProxy
  powerSaveMode : ℕ
  thrown : Bool
deriving DecidableEq

namespace State

def new (proxy : Option SensorProxy) : State where
  enableCount := 0
  claimedSensor := false
  screenOff := false
  claiming := 0
  claims := 0
  proxy := proxy
  powerSaveMode := 0
  thrown := false

variable (s : State)

def proximityAvailable : Bool := s.proxy.any (·.hasProximity)

/-- `proximityNear` of the daemon; without a proxy it throws. -/
def proximityNear (s : State) : Option Bool := s.proxy.map (·.proximityNear)

def setScreenOff (off : Bool) : State :=
  { s with screenOff := off, powerSaveMode := if off then 3 else 0 }

/-- `_startMonitoring` up to its `await`; it throws if the sensor is claimed. -/
def startClaim : State :=
  if s.claimedSensor then s else { s with claiming := s.claiming + 1 }

def claimSettled (ok : Bool) : State :=
  let s := { s with claiming := s.claiming - 1 }
  if ok then
    let s := { s with claimedSensor := true, claims := s.claims + 1 }
    if s.proximityNear = some true then s.setScreenOff true else s
  else s

def stopClaim : State :=
  if s.claimedSensor then
    let s := { s with claimedSensor := false, claims := s.claims - 1 }
    if s.screenOff then s.setScreenOff false else s
  else s

def startMonitoring : State :=
  let s := { s with enableCount := s.enableCount + 1 }
  if s.enableCount = 1 ∧ s.proximityAvailable then s.startClaim else s

def stopMonitoring : State :=
  let s := { s with enableCount := s.enableCount - 1 }
  if s.enableCount = 0 then s.stopClaim else s

def proximityAvailableChanged : State :=
  if s.enableCount = 0 then s
  else if s.proximityAvailable ∧ ¬s.claimedSensor then s.startClaim
  else if ¬s.proximityAvailable ∧ s.claimedSensor then s.stopClaim
  else s

def proximityNearChanged (near : Bool) : State :=
  if ¬s.claimedSensor then s
  else if s.enableCount = 0 then { s with thrown := true }
  else if ¬s.screenOff ∧ near then s.setScreenOff true
  else if s.screenOff ∧ ¬near then s.setScreenOff false
  else s

end State

inductive Event where
  | startMonitoring
  | stopMonitoring
  | setProxy (proxy : Option SensorProxy)
  | proximityAvailableChanged
  | proximityNearChanged
  | claimSettled (ok : Bool)
deriving DecidableEq

variable (s : State)

def step : Event → Option State
  | .startMonitoring => some s.startMonitoring
  | .stopMonitoring => some s.stopMonitoring
  | .setProxy proxy => some { s with proxy := proxy }
  | .proximityAvailableChanged => some s.proximityAvailableChanged
  | .proximityNearChanged => s.proximityNear.map s.proximityNearChanged
  | .claimSettled ok => if s.claiming = 0 then none else some (s.claimSettled ok)

structure Law : Prop where
  enabled : s.claiming = 0 → s.claimedSensor = true → 0 < s.enableCount
  once : s.claiming = 0 → s.claims = if s.claimedSensor then 1 else 0
  screen : s.claimedSensor = false → s.screenOff = false ∧ s.powerSaveMode = 0
  thrown : s.thrown = false

def Wanted : Event → Prop
  | .claimSettled true => 0 < s.enableCount ∧ s.claimedSensor = false
  | _ => True

instance (e : Event) : Decidable (Wanted s e) := by
  unfold Wanted
  split <;> infer_instance

structure Sound : Prop where
  enabled : s.claimedSensor = true → 0 < s.enableCount
  once : s.claims = if s.claimedSensor then 1 else 0
  screen : s.claimedSensor = false → s.screenOff = false
  mode : s.powerSaveMode = if s.screenOff then 3 else 0
  thrown : s.thrown = false

theorem Sound.law {s : State} (h : Sound s) : Law s := by
  refine ⟨fun _ => h.enabled, fun _ => h.once, fun hclaimed => ?_, h.thrown⟩
  have hoff := h.screen hclaimed
  have hmode := h.mode
  rw [hoff, if_neg Bool.false_ne_true] at hmode
  exact ⟨hoff, hmode⟩

/-! ## Steps -/

section Steps

variable {s t : State}

section

variable (h : Sound s)
include h

theorem Sound.setScreenOff (hclaimed : s.claimedSensor = true) (off : Bool) :
    Sound (s.setScreenOff off) := by
  refine ⟨h.enabled, h.once, fun hnot => ?_, rfl, h.thrown⟩
  have hboth : true = false := hclaimed.symm.trans hnot
  cases hboth

theorem Sound.startClaim : Sound s.startClaim := by
  unfold State.startClaim
  split
  · exact h
  · exact ⟨h.enabled, h.once, h.screen, h.mode, h.thrown⟩

theorem Sound.stopClaim (count : ℤ) :
    Sound ({ s with enableCount := count }.stopClaim) := by
  unfold State.stopClaim
  have honce := h.once
  have hmode := h.mode
  cases hclaimed : s.claimedSensor with
  | false =>
    rw [hclaimed] at honce
    refine ⟨nofun, honce, fun _ => h.screen hclaimed, hmode, h.thrown⟩
  | true =>
    rw [hclaimed, if_pos rfl] at honce
    have hclaims : s.claims - 1 = 0 := by omega
    cases hoff : s.screenOff with
    | false =>
      rw [hoff] at hmode
      exact ⟨nofun, hclaims, fun _ => rfl, hmode, h.thrown⟩
    | true => exact ⟨nofun, hclaims, fun _ => rfl, rfl, h.thrown⟩

theorem Sound.startMonitoring : Sound s.startMonitoring := by
  have hcount : Sound { s with enableCount := s.enableCount + 1 } := by
    refine ⟨fun hclaimed => ?_, h.once, h.screen, h.mode, h.thrown⟩
    have hpos := h.enabled hclaimed
    show 0 < s.enableCount + 1
    omega
  unfold State.startMonitoring
  dsimp only
  split
  · exact hcount.startClaim
  · exact hcount

theorem Sound.stopMonitoring : Sound s.stopMonitoring := by
  unfold State.stopMonitoring
  dsimp only
  split
  · exact h.stopClaim (s.enableCount - 1)
  · next hne =>
    refine ⟨fun hclaimed => ?_, h.once, h.screen, h.mode, h.thrown⟩
    have hpos := h.enabled hclaimed
    show 0 < s.enableCount - 1
    omega

theorem Sound.proximityAvailableChanged : Sound s.proximityAvailableChanged := by
  unfold State.proximityAvailableChanged
  split
  · exact h
  · split
    · exact h.startClaim
    · split
      · exact h.stopClaim s.enableCount
      · exact h

theorem Sound.proximityNearChanged (near : Bool) :
    Sound (s.proximityNearChanged near) := by
  unfold State.proximityNearChanged
  split
  · exact h
  · next hclaimed =>
    rw [Bool.not_eq_true, Bool.not_eq_false] at hclaimed
    have hpos := h.enabled hclaimed
    split
    · next hzero => omega
    · split
      · exact h.setScreenOff hclaimed true
      · split
        · exact h.setScreenOff hclaimed false
        · exact h

/-- **The claim arrives.** It has to be wanted, and the only one. -/
theorem Sound.claimSettled_iff (ok : Bool) :
    Sound (s.claimSettled ok) ↔ Wanted s (.claimSettled ok) := by
  cases ok with
  | false => exact iff_of_true ⟨h.enabled, h.once, h.screen, h.mode, h.thrown⟩ trivial
  | true =>
    have honce := h.once
    constructor
    · intro hsound
      have hfields : (s.claimSettled true).claimedSensor = true ∧
          (s.claimSettled true).enableCount = s.enableCount ∧
          (s.claimSettled true).claims = s.claims + 1 := by
        unfold State.claimSettled
        dsimp only
        rw [if_pos rfl]
        split
        · exact ⟨rfl, rfl, rfl⟩
        · exact ⟨rfl, rfl, rfl⟩
      obtain ⟨hclaimed, hcount, hclaims⟩ := hfields
      have hone := hsound.once
      rw [hclaimed, if_pos rfl, hclaims] at hone
      refine ⟨hcount ▸ hsound.enabled hclaimed, ?_⟩
      cases hbefore : s.claimedSensor with
      | false => rfl
      | true =>
        rw [hbefore, if_pos rfl] at honce
        omega
    · rintro ⟨hpos, hclaimed⟩
      rw [hclaimed] at honce
      have hclaim : Sound { s with
          claiming := s.claiming - 1
          claimedSensor := true
          claims := s.claims + 1 } := by
        refine ⟨fun _ => hpos, ?_, nofun, h.mode, h.thrown⟩
        show s.claims + 1 = 1
        rw [honce]
        decide
      unfold State.claimSettled
      dsimp only
      rw [if_pos rfl]
      split
      · exact hclaim.setScreenOff rfl true
      · exact hclaim

theorem Sound.step_iff {e : Event} (hstep : step s e = some t) :
    Sound t ↔ Wanted s e := by
  cases e with
  | startMonitoring =>
    cases hstep
    exact iff_of_true h.startMonitoring trivial
  | stopMonitoring =>
    cases hstep
    exact iff_of_true h.stopMonitoring trivial
  | setProxy proxy =>
    cases hstep
    exact iff_of_true ⟨h.enabled, h.once, h.screen, h.mode, h.thrown⟩ trivial
  | proximityAvailableChanged =>
    cases hstep
    exact iff_of_true h.proximityAvailableChanged trivial
  | proximityNearChanged =>
    obtain ⟨near, -, rfl⟩ := Option.map_eq_some_iff.mp hstep
    exact iff_of_true (h.proximityNearChanged near) trivial
  | claimSettled ok =>
    simp only [step, Option.ite_none_left_eq_some, Option.some.injEq] at hstep
    rw [← hstep.2]
    exact h.claimSettled_iff ok

end

end Steps

/-! ## Runs -/

theorem sound_new (proxy : Option SensorProxy) : Sound (.new proxy) :=
  ⟨nofun, rfl, fun _ => rfl, rfl, rfl⟩

theorem run_claims_iff {proxy : Option SensorProxy} {es : List Event} {t : State}
    (hrun : Runs.run step (.new proxy) es = some t) :
    Runs.Always step Sound (.new proxy) es ↔ Runs.Allowed step Wanted (.new proxy) es :=
  Runs.always_iff_allowed (sound_new proxy) (fun _ _ _ h hstep => h.step_iff hstep) hrun

/-- **The sensor and the screen along a run.** -/
theorem run_monitoring {proxy : Option SensorProxy} {es : List Event}
    (hok : Runs.Allowed step Wanted (.new proxy) es) : Runs.Always step Law (.new proxy) es :=
  hok.always (sound_new proxy) (fun _ h => h.law) fun _ _ _ h hok hstep => (h.step_iff hstep).mpr hok

def far : SensorProxy := ⟨true, false⟩

def near : SensorProxy := ⟨true, true⟩

def twoCalls : List Event :=
  [.startMonitoring, .startMonitoring, .setProxy none, .proximityAvailableChanged,
    .claimSettled false, .setProxy (some near), .proximityAvailableChanged, .claimSettled true,
    .setProxy (some far), .proximityNearChanged, .stopMonitoring, .setProxy (some near),
    .proximityNearChanged, .stopMonitoring]

theorem run_monitoring_twoCalls : (Runs.run step (.new (some far)) twoCalls).isSome ∧
    Runs.Always step Law (.new (some far)) twoCalls :=
  ⟨by decide, run_monitoring (by decide)⟩

def lateClaim : List Event :=
  [.startMonitoring, .stopMonitoring, .claimSettled true, .setProxy (some near),
    .proximityNearChanged]

def foundAgain : List Event :=
  [.startMonitoring, .setProxy (some ⟨false, false⟩), .proximityAvailableChanged,
    .setProxy (some far), .proximityAvailableChanged, .claimSettled true, .claimSettled true]

/-- In the first run the error is thrown. -/
theorem not_run_monitoring :
    (∃ t, Runs.run step (.new (some far)) lateClaim = some t ∧ t.thrown = true ∧ ¬Law t) ∧
      ∃ t, Runs.run step (.new (some far)) foundAgain = some t ∧ ¬Law t := by
  constructor
  · have hend : (Runs.run step (.new (some far)) lateClaim).map State.thrown = some true := by
      decide
    obtain ⟨t, hrun, hthrown⟩ := Option.map_eq_some_iff.mp hend
    refine ⟨t, hrun, hthrown, fun hlaw => ?_⟩
    cases hthrown.symm.trans hlaw.thrown
  · have hend : (Runs.run step (.new (some far)) foundAgain).map (fun t =>
        (t.claiming, t.claimedSensor, t.claims)) = some (0, true, 2) := by decide
    obtain ⟨t, hrun, hstate⟩ := Option.map_eq_some_iff.mp hend
    refine ⟨t, hrun, fun hlaw => ?_⟩
    simp only [Prod.mk.injEq] at hstate
    obtain ⟨hclaiming, hclaimed, hclaims⟩ := hstate
    have hone := hlaw.once hclaiming
    rw [hclaimed, hclaims] at hone
    cases hone

end ProximityMonitoring
