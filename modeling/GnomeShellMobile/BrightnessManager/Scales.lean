import Mathlib.Algebra.Order.Field.Rat
import GnomeShellMobile.Runs.Basic

/-!
# BrightnessManager — the scales and the backlights

The global scale, the scale of each monitor with a backlight, and `_sync`, which keeps them and
the backlights together. Values are exact rationals. While `_sync` runs, `_inhibitUpdates` makes
the handlers of `notify::value` and of `backlights-changed` return at once, so a `_sync` is one
step here and what it sets calls nothing.

A backlight is part of the compositor: `put x` is the brightness it has after it was set to `x`.
-/

namespace BrightnessManager

def scaleValueNSteps : ℚ := 20

def scaleValueChangeEpsilon : ℚ := 1 / 1000

def ratioFloor : ℚ := 1 / 100

def clamp (x lower upper : ℚ) : ℚ := min (max x lower) upper

/-- `Math.max` of the elements of a list; of no elements it is not used. -/
def maxOf : List ℚ → ℚ
  | [] => 0
  | [x] => x
  | x :: xs => max x (maxOf xs)

structure Backlight where
  brightness : ℚ
  brightnessMin : ℚ
  brightnessMax : ℚ
  min_lt_max : brightnessMin < brightnessMax

structure LogicalMonitor where
  number : Nat
  backlights : List Backlight

structure BrightnessScale where
  value : ℚ
  nSteps : ℚ
  deriving DecidableEq, Repr

structure MonitorBrightnessScale extends BrightnessScale where
  number : Nat
  backlight : Backlight
  backlights : List Backlight
  scaleChanged : Bool
  currentBacklightBrightness : ℚ
  scaleFactor : ℚ

structure State where
  globalScale : Option BrightnessScale
  monitorScales : List MonitorBrightnessScale
  dimmingTarget : ℚ
  dimmingEnabled : Bool
  abTarget : ℚ
  globalScaleChanged : Bool
  osd : List (List (Nat × ℚ))

/-! ## A scale -/

def BrightnessScale.setValue (scale : BrightnessScale) (value : ℚ) : BrightnessScale :=
  { scale with value := clamp value 0 1 }

/-- What a user can do to a scale: the setter of `value` and the key bindings. -/
inductive Change where
  | setValue (value : ℚ)
  | stepUp
  | stepDown
  | cycleUp
  deriving DecidableEq, Repr

def BrightnessScale.changed (scale : BrightnessScale) : Change → ℚ
  | .setValue value => value
  | .stepUp => min 1 (scale.value + 1 / scale.nSteps)
  | .stepDown => max 0 (scale.value - 1 / scale.nSteps)
  | .cycleUp =>
    if |1 - scale.value| < scaleValueChangeEpsilon then 0
    else min 1 (scale.value + 1 / scale.nSteps)

namespace MonitorBrightnessScale

def withValue (scale : MonitorBrightnessScale) (value : ℚ) : MonitorBrightnessScale :=
  { scale with toBrightnessScale := scale.toBrightnessScale.setValue value }

end MonitorBrightnessScale

def Backlight.range (b : Backlight) : ℚ := b.brightnessMax - b.brightnessMin

def Backlight.relative (b : Backlight) : ℚ := (b.brightness - b.brightnessMin) / b.range

def Backlight.setRelative (put : ℚ → ℚ) (b : Backlight) (brightness : ℚ) : Backlight :=
  { b with brightness := put (b.brightnessMin + b.range * brightness) }

namespace MonitorBrightnessScale

/-- The scale of a new monitor, with `_scaleChanged` set as `_monitorsChanged` does. -/
def new (number : Nat) (backlight : Backlight) (backlights : List Backlight) :
    MonitorBrightnessScale where
  value := 1
  nSteps := min (maxOf ((backlight :: backlights).map Backlight.range)) scaleValueNSteps
  number := number
  backlight := backlight
  backlights := backlights
  scaleChanged := true
  currentBacklightBrightness := -1
  scaleFactor := 1

variable (scale : MonitorBrightnessScale)

/-- What `syncWithBacklight` returns: the system has changed the backlight. -/
def backlightChanged : Bool :=
  scale.backlight.brightness ≠ scale.currentBacklightBrightness

def syncWithBacklight : MonitorBrightnessScale :=
  if scale.backlightChanged then
    { scale.withValue scale.backlight.relative with
      currentBacklightBrightness := scale.backlight.brightness }
  else scale

def syncWithScale (globalScale : BrightnessScale) :
    MonitorBrightnessScale :=
  scale.withValue (globalScale.value * scale.scaleFactor)

def setBacklight (put : ℚ → ℚ) (scale : MonitorBrightnessScale) (brightness : ℚ) :
    MonitorBrightnessScale :=
  { scale with
    backlight := scale.backlight.setRelative put brightness
    backlights := scale.backlights.map fun b => b.setRelative put brightness
    currentBacklightBrightness := (scale.backlight.setRelative put brightness).brightness }

def updateScaleFactor (max : ℚ) : MonitorBrightnessScale :=
  { scale with scaleFactor := scale.value / max }

end MonitorBrightnessScale

/-! ## `_sync` -/

namespace State

/-- The constructor, before it calls `_monitorsChanged`. -/
def new (dimmingTarget : ℚ) : State where
  globalScale := none
  monitorScales := []
  dimmingTarget := dimmingTarget
  dimmingEnabled := false
  abTarget := -1
  globalScaleChanged := false
  osd := []

def maxValue (scales : List MonitorBrightnessScale) : ℚ := maxOf (scales.map (·.value))

variable (s : State)

def showOSD (show_ : Bool) (scales : List MonitorBrightnessScale) : State :=
  if show_ then { s with osd := s.osd ++ [scales.map fun scale => (scale.number, scale.value)] }
  else s

/-- The first part of `_sync`: the backlights that the system has changed. -/
def syncWithBacklights : State :=
  { s with
    monitorScales := s.monitorScales.map MonitorBrightnessScale.syncWithBacklight
    -- disable dimming for all if there is a system initiated backlight change
    dimmingEnabled := s.dimmingEnabled && ¬ s.monitorScales.any (·.backlightChanged) }

def changedScales : List MonitorBrightnessScale :=
  s.monitorScales.filter (·.scaleChanged)

def resetChanged : State :=
  { s with monitorScales := s.monitorScales.map fun scale => { scale with scaleChanged := false } }

variable (globalScale : BrightnessScale)

/-- The second part of `_sync`, when a monitor scale has changed: `max` is the maximum of the
scales. -/
def followScales (max : ℚ) : State :=
  { s with
    globalScale := some (globalScale.setValue max)
    monitorScales :=
      -- if max is 0 no ratios can be deduced
      if ratioFloor < max then s.monitorScales.map (·.updateScaleFactor max) else s.monitorScales }

/-- The second part of `_sync`, when the global scale has changed. -/
def followGlobalScale : State :=
  { s with
    globalScaleChanged := false
    monitorScales := s.monitorScales.map (·.syncWithScale globalScale) }

/-- The second part of `_sync`. -/
def syncScales (show_ : Bool) : State :=
  if s.changedScales ≠ [] then
    (s.resetChanged.followScales globalScale (maxValue s.monitorScales)).showOSD show_
      s.changedScales
  else if s.globalScaleChanged then
    let s := s.followGlobalScale globalScale
    s.showOSD show_ s.monitorScales
  else s

def brightness (s : State) (scale : MonitorBrightnessScale) : ℚ :=
  -- the scale is a bias for the target of auto brightness, if that is active
  let target := if 0 ≤ s.abTarget then clamp (s.abTarget + scale.value - 1 / 2) 0 1 else scale.value
  min (if s.dimmingEnabled then s.dimmingTarget else 1) target

/-- The third part of `_sync`. -/
def setBacklights (put : ℚ → ℚ) (s : State) : State :=
  { s with
    monitorScales := s.monitorScales.map fun scale => scale.setBacklight put (s.brightness scale) }

def sync (put : ℚ → ℚ) (s : State) (show_ : Bool) : State :=
  match s.globalScale with
  | none => s
  | some globalScale => (s.syncWithBacklights.syncScales globalScale show_).setBacklights put

/-! ## What calls `_sync` -/

def scalesOf (monitors : List LogicalMonitor) : List MonitorBrightnessScale :=
  monitors.filterMap fun monitor =>
    match monitor.backlights with
    | [] => none
    | backlight :: backlights => some (.new monitor.number backlight backlights)

/-- `_monitorsChanged` before it calls `_sync` -/
def setMonitors (monitors : List LogicalMonitor) : State :=
  { s with
    monitorScales := scalesOf monitors
    globalScale :=
      if scalesOf monitors = [] then none
      else
        match s.globalScale with
        | some globalScale => some globalScale
        | none => some ⟨1, min (maxOf ((scalesOf monitors).map (·.nSteps))) scaleValueNSteps⟩ }

/-- The handler of `notify::value` of the global scale, before it calls `_sync` -/
def changeGlobalScale (c : Change) : State :=
  { s with
    globalScale := some (globalScale.setValue (globalScale.changed c))
    globalScaleChanged := true }

/-- The handler of `notify::value` of a monitor scale, before it calls `_sync` -/
def changeScale (i : Nat) (c : Change) : State :=
  { s with
    monitorScales := s.monitorScales.modify i fun scale =>
      { scale.withValue (scale.toBrightnessScale.changed c) with scaleChanged := true } }

/-- The system changes a backlight of the `i`-th monitor: the first, or the `j`-th of the
others. -/
def changeBacklight (i : Nat) (j : Option Nat) (brightness : ℚ) : State :=
  { s with
    monitorScales := s.monitorScales.modify i fun scale =>
      match j with
      | none => { scale with backlight := { scale.backlight with brightness := brightness } }
      | some j => { scale with
          backlights := scale.backlights.modify j fun b => { b with brightness := brightness } } }

/-- The setter of `dimming`, before it calls `_sync` -/
def setDimming (enable : Bool) : State := { s with dimmingEnabled := enable }

/-- The setter of `autoBrightnessTarget`, before it calls `_sync` -/
def setAutoBrightnessTarget (target : ℚ) : State := { s with abTarget := target }

end State

inductive Event where
  /-- `monitors-changed`, and the call of `_monitorsChanged` by the constructor -/
  | monitorsChanged (monitors : List LogicalMonitor)
  | globalScale (c : Change)
  | monitorScale (i : Nat) (c : Change)
  /-- `notify::brightness` of a backlight that the system has changed -/
  | backlight (i : Nat) (j : Option Nat) (brightness : ℚ)
  | dimming (enable : Bool)
  | autoBrightnessTarget (target : ℚ)

def step (put : ℚ → ℚ) (s : State) : Event → Option State
  | .monitorsChanged monitors => some ((s.setMonitors monitors).sync put false)
  | .globalScale c => s.globalScale.map fun globalScale =>
      (s.changeGlobalScale globalScale c).sync put true
  | .monitorScale i c =>
    if i < s.monitorScales.length then some ((s.changeScale i c).sync put true) else none
  | .backlight i j brightness =>
    if i < s.monitorScales.length then some ((s.changeBacklight i j brightness).sync put true)
    else none
  | .dimming enable => some ((s.setDimming enable).sync put true)
  | .autoBrightnessTarget target => some ((s.setAutoBrightnessTarget target).sync put true)

end BrightnessManager
