import Mathlib.Data.List.Basic

/-!
# TimeLimitsManager — the history of user state transitions

The screen time of today is counted from a list of the times at which the user became active or
inactive. This module has the list, the trimming and filtering it goes through when it is stored,
and the two loops that count over it. Times are seconds since the epoch.
-/

namespace TimeLimitsManager

inductive UserState where
  | inactive
  | active
  deriving DecidableEq, Repr

theorem UserState.eq_of_ne {a b c : UserState} (ha : a ≠ c) (hb : b ≠ c) : a = b := by
  cases a <;> cases b <;> cases c <;> simp_all

theorem UserState.eq_active_iff_of_ne {a b : UserState} (h : a ≠ b) :
    a = .active ↔ b ≠ .active := by
  cases a <;> cases b <;> simp_all

structure Transition where
  oldState : UserState
  newState : UserState
  wallTimeSecs : Int
  deriving DecidableEq, Repr

def historyThresholdSeconds : Int := 14 * 7 * 24 * 60 * 60

/-! ## Storing -/

/-- `_filterOldTransition`; `isLast` tells that the index is that of the last entry. -/
def filterOldTransition (entry : Transition) (isLast : Bool) (nowSecs : Int) : Bool :=
  decide (entry.wallTimeSecs ≤ nowSecs) &&
    (decide (nowSecs - historyThresholdSeconds ≤ entry.wallTimeSecs) || isLast)

/-- The transitions filtered by `_filterOldTransition`. -/
def trimTransitions (nowSecs : Int) : List Transition → List Transition
  | [] => []
  | e :: rest =>
      if filterOldTransition e rest.isEmpty nowSecs then e :: trimTransitions nowSecs rest
      else trimTransitions nowSecs rest

/-- The pairwise filter of `_storeTransitions`: of a pair at equal times whose states cancel each
other out, the first is dropped. -/
def filterPairs : List Transition → List Transition
  | [] => []
  | [first] => [first]
  | first :: second :: rest =>
      if first.wallTimeSecs = second.wallTimeSecs ∧ first.oldState = second.newState then
        filterPairs (second :: rest)
      else first :: filterPairs (second :: rest)

def storeTransitions (nowSecs : Int) (l : List Transition) : List Transition :=
  filterPairs (trimTransitions nowSecs l)

/-! ## Counting -/

def transitionsToday (startOfTodaySecs : Int) (l : List Transition) : List Transition :=
  l.dropWhile fun e => decide (e.wallTimeSecs < startOfTodaySecs)

/-- One turn of the counting loops, on `activeTimeTodaySecs` and `activeStartTimeSecs`. -/
def countTransition : Int × Int → Transition → Int × Int
  | (activeTime, activeStart), e =>
      if e.newState = .active then (activeTime, e.wallTimeSecs)
      else if e.oldState = .active then
        (activeTime + max (e.wallTimeSecs - activeStart) 0, activeStart)
      else (activeTime, activeStart)

def endsActive (l : List Transition) : Bool := l.getLast?.any fun e => e.newState = .active

def calculateActiveTimeTodaySecs (nowSecs startOfTodaySecs : Int) (l : List Transition) : Int :=
  let (activeTime, activeStart) :=
    (transitionsToday startOfTodaySecs l).foldl countTransition (0, startOfTodaySecs)
  if endsActive l then activeTime + max (nowSecs - activeStart) 0 else activeTime

/-- The loop of `_calculateDailyLimitReachedAtSecs`: the time at which it returns, or the two
variables at its end. -/
def limitReachedLoop (dailyLimitSecs : Int) : List Transition → Int × Int → Int ⊕ (Int × Int)
  | [], acc => .inr acc
  | e :: rest, acc =>
      let acc := countTransition acc e
      if dailyLimitSecs ≤ acc.1 then .inl (e.wallTimeSecs - (acc.1 - dailyLimitSecs))
      else limitReachedLoop dailyLimitSecs rest acc

def calculateDailyLimitReachedAtSecs (nowSecs dailyLimitSecs startOfTodaySecs : Int)
    (l : List Transition) : Int :=
  match limitReachedLoop dailyLimitSecs (transitionsToday startOfTodaySecs l)
      (0, startOfTodaySecs) with
  | .inl reachedAt => reachedAt
  | .inr (activeTime, activeStart) =>
      let activeTime :=
        if endsActive l then activeTime + max (nowSecs - activeStart) 0 else activeTime
      if dailyLimitSecs ≤ activeTime then nowSecs - (activeTime - dailyLimitSecs) else 0

end TimeLimitsManager
