import GnomeShellMobile.PerfLog.Entries
import Mathlib.Algebra.Order.Group.Int

/-!
# PerfLog — what recording an event adds to the replay

* `Log.Holds`: the blocks of a log hold a list of entries; `Holds.replay` and `Holds.write`.
* `Log.Shows`: the log replays as `out`, and the replay has then come to `clock`.
* `advance`: how far an event takes the clock of the replay, while `last_time` becomes the time of
  the event.
* `Shows.recordEvent`: one more event.
-/

namespace PerfLog

open Bytes

namespace Log

variable {log : Log} {es : List Entry} {e : Entry} {out : List Replayed} {clock time : Int64}

def builtin : List Event := [⟨setTime, "perf.setTime", .x⟩, ⟨1, "perf.statisticsCollected", .x⟩]

structure Defined (log : Log) : Prop where
  builtin : ∃ more, log.events = Log.builtin ++ more
  length : log.events.length ≤ 65536
  ids : ∀ i event, log.events[i]? = some event → event.id = UInt16.ofNat i

structure Holds (log : Log) (es : List Entry) : Prop where
  valid : ∀ e ∈ es, e.Valid log.events
  blocks : ∃ groups : List (List Entry),
    log.blocks = groups.map (·.flatMap Entry.bytes) ∧ groups.flatten = es

theorem Defined.congr {log' : Log} (h : log.Defined) (hevents : log'.events = log.events) :
    log'.Defined :=
  ⟨hevents ▸ h.builtin, hevents ▸ h.length, hevents ▸ h.ids⟩

theorem Holds.congr {log' : Log} (h : log.Holds es) (hevents : log'.events = log.events)
    (hblocks : log'.blocks = log.blocks) : log'.Holds es :=
  ⟨hevents ▸ h.valid, hblocks ▸ h.blocks⟩

section

variable (h : log.Defined)
include h

theorem Defined.setTime_signature (he : e.Valid log.events)
    (hid : e.id = setTime) : e.arg.signature = .x := by
  obtain ⟨more, hmore⟩ := h.builtin
  obtain ⟨event, hevent, hsig⟩ := he
  rw [hid, hmore] at hevent
  cases hevent
  exact hsig.symm

theorem Defined.lookupEvent_setTime :
    log.lookupEvent "perf.setTime" .x = some ⟨setTime, "perf.setTime", .x⟩ := by
  obtain ⟨more, hmore⟩ := h.builtin
  rw [lookupEvent, eventByName, hmore]
  rfl

theorem Defined.collected :
    log.events[statisticsCollected]? = some ⟨1, "perf.statisticsCollected", .x⟩ := by
  obtain ⟨more, hmore⟩ := h.builtin
  rw [hmore]
  rfl

theorem Defined.getElem?_id {event : Event} (hevent : event ∈ log.events) :
    log.events[event.id.toNat]? = some event := by
  obtain ⟨i, hi⟩ := List.mem_iff_getElem?.mp hevent
  have hlt := (List.getElem?_eq_some_iff.mp hi).1
  have hlen := h.length
  rw [h.ids i event hi, UInt16.toNat_ofNat', Nat.mod_eq_of_lt (by omega)]
  exact hi

end

/-- Blocks are replayed one after another. Induction on the blocks. -/
theorem replayBlocks_eq (hdef : log.Defined) (groups : List (List Entry))
    (hvalid : ∀ e ∈ groups.flatten, e.Valid log.events) (time : Int64) :
    replayBlocks log.events (groups.map (·.flatMap Entry.bytes)) time =
      (play log.events groups.flatten time).1 := by
  induction groups generalizing time with
  | nil => rfl
  | cons group groups ih =>
    rw [List.flatten_cons] at hvalid ⊢
    obtain ⟨hgroup, hgroups⟩ := List.forall_mem_append.mp hvalid
    rw [List.map_cons, replayBlocks, replayBlock_bytes hgroup
      (fun e he => hdef.setTime_signature (hgroup e he)) _ le_rfl, play_append hgroup]
    dsimp only
    rw [ih hgroups]

/-- **A log is replayed as its entries are played.** -/
theorem Holds.replay (h : log.Holds es) (hdef : log.Defined) :
    log.replay = (play log.events es log.startTime).1 := by
  obtain ⟨groups, hblocks, hflatten⟩ := h.blocks
  rw [Log.replay, hblocks, replayBlocks_eq hdef groups (hflatten ▸ h.valid), hflatten]

/-- **One entry is written**, into the last block or a new one. -/
theorem Holds.write (h : log.Holds es) {event : Event} {arg : Arg} {timeDelta : UInt32}
    (hvalid : (Entry.mk timeDelta event.id arg).Valid log.events) :
    (log.write timeDelta event arg.bytes).Holds (es ++ [⟨timeDelta, event.id, arg⟩]) := by
  obtain ⟨groups, hblocks, hflatten⟩ := h.blocks
  have hvalid' : ∀ e ∈ es ++ [⟨timeDelta, event.id, arg⟩], e.Valid log.events := by
    intro e he
    rcases List.mem_append.mp he with he | he
    · exact h.valid e he
    · rw [List.mem_singleton.mp he]
      exact hvalid
  have hentry : toBytes 4 timeDelta.toNat ++ toBytes 2 event.id.toNat ++ arg.bytes =
      [Entry.mk timeDelta event.id arg].flatMap Entry.bytes :=
    (List.append_nil _).symm
  have hnew : log.blocks ++ [toBytes 4 timeDelta.toNat ++ toBytes 2 event.id.toNat ++ arg.bytes] =
      (groups ++ [[Entry.mk timeDelta event.id arg]]).map (·.flatMap Entry.bytes) := by
    rw [hblocks, hentry, List.map_append]
    rfl
  have hflatten' : (groups ++ [[Entry.mk timeDelta event.id arg]]).flatten =
      es ++ [⟨timeDelta, event.id, arg⟩] := by
    rw [List.flatten_append, hflatten]
    rfl
  rw [Log.write]
  rcases List.eq_nil_or_concat groups with rfl | ⟨init, last, rfl⟩
  · have hnil : log.blocks = [] := hblocks
    rw [hnil] at hnew
    rw [hnil]
    exact ⟨hvalid', _, hnew, hflatten'⟩
  · have hblocks' : log.blocks =
        init.map (·.flatMap Entry.bytes) ++ [last.flatMap Entry.bytes] := by
      rw [hblocks, List.concat_eq_append, List.map_append]
      rfl
    have hlast : log.blocks.getLast? = some (last.flatMap Entry.bytes) := by
      rw [hblocks', List.getLast?_concat]
    rw [hlast]
    dsimp only
    split
    · exact ⟨hvalid', _, hnew, hflatten'⟩
    · refine ⟨hvalid', init ++ [last ++ [⟨timeDelta, event.id, arg⟩]], ?_, ?_⟩
      · show log.blocks.dropLast ++ [_] = _
        rw [hblocks', List.dropLast_concat, hentry, List.map_append, List.map_singleton,
          List.flatMap_append]
      · rw [← hflatten, List.concat_eq_append, List.flatten_append, List.flatten_append]
        simp

theorem write_eq (log : Log) (d : UInt32) (event : Event) (bytes : List UInt8) :
    ∃ blocks, log.write d event bytes = { log with blocks := blocks } := by
  rw [write]
  split
  · exact ⟨_, rfl⟩
  · split <;> exact ⟨_, rfl⟩

theorem write_events (d : UInt32) (event : Event) (bytes : List UInt8) :
    (log.write d event bytes).events = log.events := by
  obtain ⟨blocks, h⟩ := log.write_eq d event bytes
  rw [h]

theorem write_startTime (d : UInt32) (event : Event) (bytes : List UInt8) :
    (log.write d event bytes).startTime = log.startTime := by
  obtain ⟨blocks, h⟩ := log.write_eq d event bytes
  rw [h]

/-! ## The two clocks -/

structure Shows (log : Log) (out : List Replayed) (clock : Int64) : Prop where
  defined : log.Defined
  entries : ∃ es, log.Holds es ∧ play log.events es log.startTime = (out, clock)

theorem Shows.replay (h : log.Shows out clock) : log.replay = out := by
  obtain ⟨es, hes, hplay⟩ := h.entries
  rw [hes.replay h.defined, hplay]

def added (clock : Int64) (event : Event) (arg : Arg) : List Replayed :=
  if event.id = setTime then [] else [⟨clock, event.name, event.signature, arg⟩]

/-- The clock of the replay after an entry that takes it to `clock`. -/
def after (clock : Int64) (event : Event) (arg : Arg) : Int64 :=
  if event.id = setTime then arg.time clock else clock

/-- **One entry is recorded.** -/
theorem Shows.recordDelta (h : log.Shows out clock) (time : Int64) (event : Event) (arg : Arg)
    (clock' : Int64) (hevent : event ∈ log.events) (hsig : event.signature = arg.signature)
    (hnear : gap log.lastTime time = false) (hclock : clock' = if time < log.lastTime then clock
      else clock + Int64.ofNat (time.toInt - log.lastTime.toInt).toNat) :
    (log.recordDelta time event arg.bytes).Shows (out ++ added clock' event arg)
      (after clock' event arg) := by
  obtain ⟨es, hes, hplay⟩ := h.entries
  have hid := h.defined.getElem?_id hevent
  rw [Log.recordDelta]
  generalize hdelta : (if time < log.lastTime then (0 : UInt32)
    else UInt32.ofNat (time.toInt - log.lastTime.toInt).toNat) = timeDelta
  -- the delta fits, so that the clock of the replay goes on by it
  have hadvance : clock + Int64.ofNat timeDelta.toNat = clock' := by
    rw [hclock, ← hdelta]
    split
    · exact Int64.add_zero clock
    · rename_i hle
      rw [Int64.lt_iff_toInt_lt] at hle
      have hfits : (time.toInt - log.lastTime.toInt).toNat < 2 ^ 32 := by
        rw [gap, decide_eq_false_iff_not] at hnear
        omega
      rw [UInt32.toNat_ofNat', Nat.mod_eq_of_lt hfits]
  have hes' : ({ log with lastTime := time } : Log).Holds es := hes.congr rfl rfl
  refine ⟨h.defined.congr (write_events ..), _, hes'.write ⟨event, hid, hsig⟩, ?_⟩
  rw [write_events, write_startTime]
  dsimp only
  rw [play_append hes.valid, hplay]
  dsimp only
  rw [added, after]
  split
  · rename_i hset
    rw [play_setTime hset]
    have harg : arg.signature = .x :=
      h.defined.setTime_signature (e := ⟨timeDelta, event.id, arg⟩) ⟨event, hid, hsig⟩ hset
    cases arg with
    | x n => rfl
    | _ => cases harg
  · rename_i hset
    rw [play_event hset hid]
    dsimp only
    rw [hadvance]
    rfl

theorem recordDelta_eq (log : Log) (time : Int64) (event : Event) (bytes : List UInt8) :
    ∃ blocks, log.recordDelta time event bytes =
      { log with lastTime := time, blocks := blocks } := by
  rw [Log.recordDelta]
  obtain ⟨blocks, h⟩ := write_eq { log with lastTime := time }
    (if time < log.lastTime then 0 else UInt32.ofNat (time.toInt - log.lastTime.toInt).toNat)
    event bytes
  exact ⟨blocks, h⟩

theorem gap_self (time : Int64) : gap time time = false := by
  rw [gap, decide_eq_false_iff_not]
  omega

/-- How far an event takes the clock of the replay from `clock`, where the event before it was
recorded at `lastTime`. -/
def advance (lastTime clock time : Int64) : Int64 :=
  if gap lastTime time then time
  else if time < lastTime then clock
  else clock + Int64.ofNat (time.toInt - lastTime.toInt).toNat

theorem recordEvent_eq (log : Log) (time : Int64) (event : Event) (bytes : List UInt8) :
    ∃ lastTime blocks, log.recordEvent time event bytes =
      { log with lastTime := lastTime, blocks := blocks } := by
  rw [Log.recordEvent]
  split
  · split
    · exact ⟨_, _, rfl⟩
    · split
      · dsimp only
        split
        · exact ⟨_, _, rfl⟩
        · rename_i setTime _
          obtain ⟨b, hb⟩ := recordDelta_eq { log with lastTime := time } time setTime
            (Arg.x time).bytes
          obtain ⟨b', hb'⟩ := recordDelta_eq { log with lastTime := time, blocks := b }
            time event bytes
          rw [hb]
          exact ⟨_, _, hb'⟩
      · obtain ⟨b, hb⟩ := recordDelta_eq log time event bytes
        exact ⟨_, _, hb⟩
  · exact ⟨_, _, rfl⟩

def fits (arg : Arg) : Bool := 4 + 2 + arg.bytes.length ≤ blockSize

/-- **An event is recorded**, with `perf.setTime` before it if the delta does not fit. -/
theorem Shows.recordEvent (h : log.Shows out clock) (time : Int64) (henabled : log.enabled = true)
    {event : Event} {arg : Arg} (hevent : event ∈ log.events)
    (hsig : event.signature = arg.signature) (hfits : fits arg = true) :
    (log.recordEvent time event arg.bytes).Shows
        (out ++ added (advance log.lastTime clock time) event arg)
        (after (advance log.lastTime clock time) event arg) ∧
      (log.recordEvent time event arg.bytes).lastTime = time := by
  have hsize : ¬ (blockSize < arg.bytes.length ∨ blockSize < 4 + 2 + arg.bytes.length) := by
    have := of_decide_eq_true hfits
    omega
  rw [Log.recordEvent, if_pos henabled, if_neg hsize]
  split
  · rename_i hgap
    have hadvance : advance log.lastTime clock time = time := if_pos hgap
    have h' : ({ log with lastTime := time } : Log).Shows out clock := by
      obtain ⟨es, hes, hplay⟩ := h.entries
      exact ⟨h.defined.congr rfl, es, hes.congr rfl rfl, hplay⟩
    have hmem : ⟨setTime, "perf.setTime", .x⟩ ∈ log.events := by
      obtain ⟨more, hmore⟩ := h.defined.builtin
      rw [hmore]
      exact List.mem_append_left _ List.mem_cons_self
    rw [hadvance]
    dsimp only
    rw [h'.defined.lookupEvent_setTime]
    dsimp only
    -- first the new time, which is not replayed, then the event with the delta 0
    have hfirst := h'.recordDelta time ⟨setTime, "perf.setTime", .x⟩ (.x time) _ hmem rfl
      (gap_self time) rfl
    rw [added, if_pos rfl, List.append_nil, after, if_pos rfl, Arg.time] at hfirst
    obtain ⟨blocks, hblocks⟩ := recordDelta_eq { log with lastTime := time } time
      ⟨setTime, "perf.setTime", .x⟩ (Arg.x time).bytes
    rw [hblocks] at hfirst ⊢
    have hsecond := hfirst.recordDelta time event arg time hevent hsig (gap_self time) (by
        show time = if time < time then time else time + _
        rw [if_neg Int64.lt_irrefl, sub_self]
        exact (Int64.add_zero time).symm)
    obtain ⟨blocks', hblocks'⟩ := recordDelta_eq
      { log with lastTime := time, blocks := blocks } time event arg.bytes
    exact ⟨hsecond, by rw [hblocks']⟩
  · rename_i hgap
    have hgap : gap log.lastTime time = false := Bool.eq_false_iff.mpr hgap
    refine ⟨h.recordDelta time event arg _ hevent hsig hgap ?_, ?_⟩
    · rw [advance, hgap]
      rfl
    · obtain ⟨blocks, hblocks⟩ := recordDelta_eq log time event arg.bytes
      rw [hblocks]

end Log

end PerfLog
