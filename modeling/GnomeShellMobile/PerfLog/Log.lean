import GnomeShellMobile.Bytes.LittleEndian
import Mathlib.Data.List.TakeWhile

/-!
# PerfLog — the performance log

`ShellPerfLog` of `src/shell-perf-log.c`. Events are recorded into blocks of bytes, each with the
time since the event before it, and replayed from there.

* `Event`, `Arg`, `Statistic`: what is defined, and what is recorded.
* `Log`: the log; `Log.recordEvent` and the functions that call it.
* `Log.replay`: what `shell_perf_log_replay` reports.

The strings of C are lists of bytes none of which is 0. The clock is read by the caller of each
function here; where `gint64` would overflow nothing is defined in C, and sums that are only
compared are integers.
-/

namespace PerfLog

open Bytes

def blockSize : ℕ := 8192

/-- The signatures `""`, `"s"`, `"i"` and `"x"`. -/
inductive Signature where
  | none
  | s
  | i
  | x
  deriving DecidableEq, Repr

/-- The check of `define_event`. -/
def Signature.ofString : String → Option Signature
  | "" => some .none
  | "s" => some .s
  | "i" => some .i
  | "x" => some .x
  | _ => Option.none

/-- `ShellPerfEvent`. -/
structure Event where
  id : UInt16
  name : String
  signature : Signature
  deriving DecidableEq, Repr

def CString := { bytes : List UInt8 // (0 : UInt8) ∉ bytes }
  deriving DecidableEq

def CString.read (buffer : List UInt8) : CString :=
  ⟨buffer.takeWhile (· ≠ 0), fun h => by simpa using List.mem_takeWhile_imp h⟩

inductive Arg where
  | none
  | s (string : CString)
  | i (n : Int32)
  | x (n : Int64)
  deriving DecidableEq

namespace Arg

def signature : Arg → Signature
  | none => .none
  | s _ => .s
  | i _ => .i
  | x _ => .x

def bytes : Arg → List UInt8
  | none => []
  | s string => string.1 ++ [0]
  | i n => toBytes 4 n.toBitVec.toNat
  | x n => toBytes 8 n.toBitVec.toNat

end Arg

/-- `ShellPerfStatistic`: `current_value` once it is initialized, `last_value` once recorded. -/
structure Statistic where
  event : Event
  current : Option Arg
  last : Option Arg
  deriving DecidableEq

def Statistic.due (stat : Statistic) : Option Arg :=
  if stat.current = stat.last then none else stat.current

structure Log where
  events : List Event
  statistics : List Statistic
  /-- The buffers, up to their `bytes`. -/
  blocks : List (List UInt8)
  startTime : Int64
  lastTime : Int64
  enabled : Bool

/-- A replayed event, as `replay_function` gets it. -/
structure Replayed where
  time : Int64
  name : String
  signature : Signature
  arg : Arg
  deriving DecidableEq

namespace Log

/-! ## Definitions of events -/

def setTime : UInt16 := 0

def statisticsCollected : ℕ := 1

variable (log : Log)

variable (name : String)

/-- `g_hash_table_lookup (events_by_name, name)`. -/
def eventByName : Option Event := log.events.find? (·.name = name)

/-- `define_event`; `none` if there is a warning. -/
def defineEvent (name signature : String) : Option (Log × Event) :=
  match Signature.ofString signature with
  | none => none
  | some sig =>
    if log.events.length = 65536 then none
    else if Char.ofNat 34 ∈ name.toList then none
    else if log.eventByName name ≠ none then none
    else
      let event := ⟨UInt16.ofNat log.events.length, name, sig⟩
      some ({ log with events := log.events ++ [event] }, event)

/-- `lookup_event`; `none` if there is a warning. -/
def lookupEvent (signature : Signature) : Option Event :=
  match log.eventByName name with
  | none => none
  | some event => if event.signature = signature then some event else none

/-! ## Recording -/

/-- The end of `record_event`: the bytes go into the last block, or into a new one. -/
def write (timeDelta : UInt32) (event : Event) (bytes : List UInt8) : Log :=
  let entry := toBytes 4 timeDelta.toNat ++ toBytes 2 event.id.toNat ++ bytes
  match log.blocks.getLast? with
  | none => { log with blocks := [entry] }
  | some block =>
    if blockSize < entry.length + block.length then { log with blocks := log.blocks ++ [entry] }
    else { log with blocks := log.blocks.dropLast ++ [block ++ entry] }

/-- `event_time > perf_log->last_time + G_GINT64_CONSTANT(0xffffffff)`. -/
def gap (lastTime eventTime : Int64) : Bool := lastTime.toInt + 0xffffffff < eventTime.toInt

variable (eventTime : Int64)

def recordDelta (event : Event) (bytes : List UInt8) : Log :=
  let timeDelta : UInt32 :=
    if eventTime < log.lastTime then 0
    else UInt32.ofNat (eventTime.toInt - log.lastTime.toInt).toNat
  { log with lastTime := eventTime }.write timeDelta event bytes

/-- `record_event`. Before an event with a delta that does not fit, it calls itself with the new
`last_time` and the event `perf.setTime`, for which the delta is 0. -/
def recordEvent (event : Event) (bytes : List UInt8) : Log :=
  if log.enabled then
    if blockSize < bytes.length ∨ blockSize < 4 + 2 + bytes.length then log
    else if gap log.lastTime eventTime then
      let log := { log with lastTime := eventTime }
      match log.lookupEvent "perf.setTime" .x with
      | none => log
      | some setTime =>
        (log.recordDelta eventTime setTime (Arg.x eventTime).bytes).recordDelta eventTime event bytes
    else log.recordDelta eventTime event bytes
  else log

variable (time : Int64)

def eventWith (name : String) (arg : Arg) : Log :=
  match log.lookupEvent name arg.signature with
  | none => log
  | some event => log.recordEvent time event arg.bytes

/-- `shell_perf_log_event`. -/
def event (name : String) : Log := log.eventWith time name .none

/-- `shell_perf_log_event_i`. -/
def eventI (name : String) (arg : Int32) : Log :=
  log.eventWith time name (.i arg)

/-- `shell_perf_log_event_x`. -/
def eventX (name : String) (arg : Int64) : Log :=
  log.eventWith time name (.x arg)

/-- `shell_perf_log_event_s`. -/
def eventS (name : String) (arg : CString) : Log :=
  log.eventWith time name (.s arg)

/-! ## Statistics -/

/-- `shell_perf_log_define_statistic`. -/
def defineStatistic (name signature : String) : Log :=
  if signature ≠ "i" ∧ signature ≠ "x" then log
  else
    match log.defineEvent name signature with
    | none => log
    | some (log, event) => { log with statistics := log.statistics ++ [⟨event, none, none⟩] }

/-- `shell_perf_log_update_statistic_i` and `shell_perf_log_update_statistic_x`. -/
def updateStatistic (value : Arg) : Log :=
  { log with
    statistics := log.statistics.map fun stat =>
      if stat.event.name = name ∧ stat.event.signature = value.signature then
        { stat with current := some value }
      else stat }

/-- One turn of the loop of `shell_perf_log_collect_statistics`. -/
def recordStatistic (log : Log) (stat : Statistic) : Log :=
  match stat.due with
  | none => log
  | some value => log.recordEvent eventTime stat.event value.bytes

/-- `shell_perf_log_collect_statistics` once the callbacks have run: `eventTime` was read before
they were called, and `now` after. -/
def collectStatistics (eventTime now : Int64) : Log :=
  if log.enabled then
    let log := log.statistics.foldl (recordStatistic eventTime) log
    let log :=
      { log with statistics := log.statistics.map fun stat => { stat with last := stat.current } }
    match log.events[statisticsCollected]? with
    | none => log
    | some event => log.recordEvent eventTime event (Arg.x (now - eventTime)).bytes
  else log

/-! ## Replaying -/

def readArg (signature : Signature) (buffer : List UInt8) : Arg × List UInt8 :=
  match signature with
  | .none => (.none, buffer)
  | .i => (.i (.ofBitVec (BitVec.ofNat 32 (ofBytes (buffer.take 4)))), buffer.drop 4)
  | .x => (.x (.ofBitVec (BitVec.ofNat 64 (ofBytes (buffer.take 8)))), buffer.drop 8)
  | .s =>
    let string := CString.read buffer
    (.s string, buffer.drop (string.1.length + 1))

/-- The loop over one block, with `event_time`. Each turn takes a byte at least, so that there are
at most as many as bytes. -/
def replayBlock (events : List Event) : ℕ → List UInt8 → Int64 → List Replayed × Int64
  | 0, _, eventTime => ([], eventTime)
  | turns + 1, buffer, eventTime =>
    if buffer = [] then ([], eventTime)
    else
      let timeDelta := ofBytes (buffer.take 4)
      let id := ofBytes ((buffer.drop 4).take 2)
      let rest := (buffer.drop 4).drop 2
      if id = setTime.toNat then
        replayBlock events turns (rest.drop 8)
          (.ofBitVec (BitVec.ofNat 64 (ofBytes (rest.take 8))))
      else
        let eventTime := eventTime + Int64.ofNat timeDelta
        match events[id]? with
        | none => ([], eventTime)
        | some event =>
          let (arg, rest) := readArg event.signature rest
          let (replayed, last) := replayBlock events turns rest eventTime
          (⟨eventTime, event.name, event.signature, arg⟩ :: replayed, last)

def replayBlocks (events : List Event) : List (List UInt8) → Int64 → List Replayed
  | [], _ => []
  | block :: blocks, eventTime =>
    let (replayed, eventTime) := replayBlock events block.length block eventTime
    replayed ++ replayBlocks events blocks eventTime

/-- `shell_perf_log_replay`. -/
def replay : List Replayed := replayBlocks log.events log.blocks log.startTime

/-- `shell_perf_log_init`. -/
def new : Log where
  events := [⟨setTime, "perf.setTime", .x⟩, ⟨1, "perf.statisticsCollected", .x⟩]
  statistics := []
  blocks := []
  startTime := time
  lastTime := time
  enabled := false

end Log

end PerfLog
