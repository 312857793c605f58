import GnomeShellMobile.PerfLog.Log

/-!
# PerfLog — the bytes of a log are entries

What is written is a list of entries, cut into blocks at entries (`Log.Holds`). `play` reads
entries the way the replay reads bytes, and `Log.replay_eq` says that it is what the replay of a
log does.
-/

namespace PerfLog

open Bytes

/-! ## Arguments -/

theorem CString.takeWhile_eq (string : CString) (rest : List UInt8) :
    (string.1 ++ 0 :: rest).takeWhile (· ≠ 0) = string.1 := by
  have hpos : ∀ b ∈ string.1, (decide (b ≠ 0)) = true := by
    intro b hb
    refine decide_eq_true ?_
    rintro rfl
    exact string.2 hb
  rw [List.takeWhile_append_of_pos hpos, List.takeWhile_cons_of_neg (by simp), List.append_nil]

theorem CString.read_eq (string : CString) (rest : List UInt8) :
    CString.read (string.1 ++ 0 :: rest) = string :=
  Subtype.ext (string.takeWhile_eq rest)

theorem int64_ofBytes (n : Int64) :
    Int64.ofBitVec (BitVec.ofNat 64 (ofBytes (toBytes 8 n.toBitVec.toNat))) = n := by
  rw [ofBytes_toBytes 8 _ n.toBitVec.isLt, BitVec.ofNat_toNat, BitVec.setWidth_eq]
  rfl

theorem int32_ofBytes (n : Int32) :
    Int32.ofBitVec (BitVec.ofNat 32 (ofBytes (toBytes 4 n.toBitVec.toNat))) = n := by
  rw [ofBytes_toBytes 4 _ n.toBitVec.isLt, BitVec.ofNat_toNat, BitVec.setWidth_eq]
  rfl

/-- **The round trip of an argument.** -/
theorem Log.readArg_bytes (arg : Arg) (rest : List UInt8) :
    Log.readArg arg.signature (arg.bytes ++ rest) = (arg, rest) := by
  cases arg with
  | none => rfl
  | i n =>
    show (Arg.i _, _) = _
    rw [Arg.bytes, take_toBytes, drop_toBytes, int32_ofBytes]
  | x n =>
    show (Arg.x _, _) = _
    rw [Arg.bytes, take_toBytes, drop_toBytes, int64_ofBytes]
  | s string =>
    have hbytes : (Arg.s string).bytes ++ rest = string.1 ++ 0 :: rest := by
      rw [Arg.bytes, List.append_assoc]
      rfl
    have hread : CString.read ((Arg.s string).bytes ++ rest) = string := by
      rw [hbytes, CString.read_eq]
    show (Arg.s (CString.read _), List.drop ((CString.read _).1.length + 1) _) = _
    rw [hread, Arg.bytes, List.drop_left' (by simp)]

/-! ## Entries -/

/-- What `record_event` writes. -/
structure Entry where
  timeDelta : UInt32
  id : UInt16
  arg : Arg

namespace Entry

def bytes (e : Entry) : List UInt8 :=
  toBytes 4 e.timeDelta.toNat ++ toBytes 2 e.id.toNat ++ e.arg.bytes

def Valid (events : List Event) (e : Entry) : Prop :=
  ∃ event, events[e.id.toNat]? = some event ∧ event.signature = e.arg.signature

theorem length_bytes (e : Entry) : e.bytes.length = 6 + e.arg.bytes.length := by
  rw [bytes, List.length_append, List.length_append, length_toBytes, length_toBytes]

theorem Valid.append {events : List Event} {e : Entry} (h : e.Valid events) (more : List Event) :
    e.Valid (events ++ more) := by
  obtain ⟨event, hevent, hsig⟩ := h
  refine ⟨event, ?_, hsig⟩
  rw [List.getElem?_append_left (List.getElem?_eq_some_iff.mp hevent).1]
  exact hevent

end Entry

/-- The time that the event `perf.setTime` carries. -/
def Arg.time (arg : Arg) (eventTime : Int64) : Int64 :=
  match arg with
  | .x n => n
  | _ => eventTime

def play (events : List Event) : List Entry → Int64 → List Replayed × Int64
  | [], eventTime => ([], eventTime)
  | e :: es, eventTime =>
    if e.id = Log.setTime then play events es (e.arg.time eventTime)
    else
      let eventTime := eventTime + Int64.ofNat e.timeDelta.toNat
      match events[e.id.toNat]? with
      | none => ([], eventTime)
      | some event =>
        let (replayed, last) := play events es eventTime
        (⟨eventTime, event.name, event.signature, e.arg⟩ :: replayed, last)

section Play

variable {events : List Event} {e : Entry} {es : List Entry} {time : Int64}

theorem play_setTime (h : e.id = Log.setTime) :
    play events (e :: es) time = play events es (e.arg.time time) := if_pos h

theorem play_event (h : e.id ≠ Log.setTime) {event : Event}
    (hevent : events[e.id.toNat]? = some event) : play events (e :: es) time =
      (⟨time + Int64.ofNat e.timeDelta.toNat, event.name, event.signature, e.arg⟩ ::
          (play events es (time + Int64.ofNat e.timeDelta.toNat)).1,
        (play events es (time + Int64.ofNat e.timeDelta.toNat)).2) := by
  rw [play, if_neg h]
  dsimp only
  rw [hevent]

/-- A list of entries is played as its parts are. Induction on the first part. -/
theorem play_append {as bs : List Entry} (h : ∀ e ∈ as, e.Valid events) :
    play events (as ++ bs) time =
      ((play events as time).1 ++ (play events bs (play events as time).2).1,
        (play events bs (play events as time).2).2) := by
  induction as generalizing time with
  | nil => rfl
  | cons e as ih =>
    have has := List.forall_mem_cons.mp h
    rw [List.cons_append]
    by_cases hid : e.id = Log.setTime
    · rw [play_setTime hid, play_setTime hid, ih has.2]
    · obtain ⟨event, hevent, -⟩ := has.1
      rw [play_event hid hevent, play_event hid hevent, ih has.2]
      rfl

theorem play_more (h : ∀ e ∈ es, e.Valid events) (more : List Event) :
    play (events ++ more) es time = play events es time := by
  induction es generalizing time with
  | nil => rfl
  | cons e es ih =>
    have hes := List.forall_mem_cons.mp h
    by_cases hid : e.id = Log.setTime
    · rw [play_setTime hid, play_setTime hid, ih hes.2]
    · obtain ⟨event, hevent, -⟩ := hes.1
      have hmore : (events ++ more)[e.id.toNat]? = some event := by
        rw [List.getElem?_append_left (List.getElem?_eq_some_iff.mp hevent).1, hevent]
      rw [play_event hid hevent, play_event hid hmore, ih hes.2]

/-- **One entry.** It is at the front of the buffer, and the replay reads it. -/
theorem Log.replayBlock_entry (he : e.Valid events) (hsetTime : e.id = setTime →
    e.arg.signature = .x) (turns : ℕ) (rest : List UInt8) (time : Int64) :
    Log.replayBlock events (turns + 1) (e.bytes ++ rest) time =
      if e.id = setTime then Log.replayBlock events turns rest (e.arg.time time)
      else
        match events[e.id.toNat]? with
        | none => ([], time + Int64.ofNat e.timeDelta.toNat)
        | some event =>
          (⟨time + Int64.ofNat e.timeDelta.toNat, event.name, event.signature, e.arg⟩ ::
              (Log.replayBlock events turns rest (time + Int64.ofNat e.timeDelta.toNat)).1,
            (Log.replayBlock events turns rest (time + Int64.ofNat e.timeDelta.toNat)).2) := by
  have hne : e.bytes ++ rest ≠ [] := by
    intro hnil
    have := e.length_bytes
    rw [(List.append_eq_nil_iff.mp hnil).1, List.length_nil] at this
    omega
  have hdelta : e.timeDelta.toNat < 256 ^ 4 := e.timeDelta.toNat_lt
  have hid2 : e.id.toNat < 256 ^ 2 := e.id.toNat_lt
  have hbytes : e.bytes ++ rest =
      toBytes 4 e.timeDelta.toNat ++ (toBytes 2 e.id.toNat ++ (e.arg.bytes ++ rest)) := by
    rw [Entry.bytes, List.append_assoc, List.append_assoc]
  rw [Log.replayBlock, if_neg hne]
  dsimp only
  rw [hbytes, ofBytes_take 4 _ _ hdelta, drop_toBytes, ofBytes_take 2 _ _ hid2, drop_toBytes]
  by_cases hid : e.id = setTime
  · rw [if_pos hid, if_pos (congrArg UInt16.toNat hid)]
    cases harg : e.arg with
    | x n => rw [Arg.bytes, drop_toBytes, take_toBytes, int64_ofBytes, Arg.time]
    | _ =>
      have := hsetTime hid
      rw [harg] at this
      cases this
  · obtain ⟨event, hevent, hsig⟩ := he
    rw [if_neg hid, if_neg fun h => hid (UInt16.toNat_inj.mp h), hevent]
    dsimp only
    rw [hsig, Log.readArg_bytes]

/-- A block of entries is replayed as they are played. Induction on the entries. -/
theorem Log.replayBlock_bytes (h : ∀ e ∈ es, e.Valid events)
    (hsetTime : ∀ e ∈ es, e.id = setTime → e.arg.signature = .x) (turns : ℕ)
    (hturns : (es.flatMap Entry.bytes).length ≤ turns) (time : Int64) :
    Log.replayBlock events turns (es.flatMap Entry.bytes) time = play events es time := by
  induction es generalizing turns time with
  | nil => cases turns <;> rfl
  | cons e es ih =>
    obtain ⟨he, hes⟩ := List.forall_mem_cons.mp h
    obtain ⟨hse, hses⟩ := List.forall_mem_cons.mp hsetTime
    rw [List.flatMap_cons, List.length_append, e.length_bytes] at hturns
    obtain ⟨turns, rfl⟩ : ∃ n, turns = n + 1 := ⟨turns - 1, by omega⟩
    have hih := fun t => ih hes hses turns (by omega) t
    rw [List.flatMap_cons, Log.replayBlock_entry he hse]
    by_cases hid : e.id = setTime
    · rw [if_pos hid, play_setTime hid, hih]
    · obtain ⟨event, hevent, -⟩ := he
      rw [if_neg hid, play_event hid hevent, hevent]
      dsimp only
      rw [hih]

end Play

end PerfLog
