import GnomeShellMobile.PerfLog.Recording

/-!
# PerfLog — the replay of everything that is recorded

* `Op`, `Log.perform`: what a program does with the log; `recordedBy` are the events it records.
* `shown`: what the replay shows of them, which has its own clock (`replay_run`).
* `expected`: what it is meant to show: each event at its time, or at the largest time before.
* `replay_run_iff`: the two are the same exactly for the events that are `InOrder`.
-/

namespace PerfLog

open Log

structure Record where
  time : Int64
  event : Event
  arg : Arg
  deriving DecidableEq

def shown (lastTime clock : Int64) : List Record → List Replayed
  | [] => []
  | r :: rs =>
    added (advance lastTime clock r.time) r.event r.arg ++
      shown r.time (after (advance lastTime clock r.time) r.event r.arg) rs

def later (a b : Int64) : Int64 := if a < b then b else a

/-- Every event, each at its own time, or at the largest time recorded before it, or at `largest`,
when that is larger. -/
def expected (largest : Int64) : List Record → List Replayed
  | [] => []
  | r :: rs =>
    ⟨later largest r.time, r.event.name, r.event.signature, r.arg⟩ ::
      expected (later largest r.time) rs

/-- No event is recorded under the internal name, and each one directly after the largest time so
far, or not after the event before it, or with a gap after it that the delta does not fit. -/
def InOrder (lastTime largest : Int64) : List Record → Prop
  | [] => True
  | r :: rs =>
    r.event.id ≠ setTime ∧
      (lastTime = largest ∨ r.time ≤ lastTime ∨ (gap lastTime r.time ∧ largest ≤ r.time)) ∧
      InOrder r.time (later largest r.time) rs

instance InOrder.decidable : (lastTime largest : Int64) → (rs : List Record) →
    Decidable (InOrder lastTime largest rs)
  | _, _, [] => .isTrue trivial
  | _, largest, r :: rs =>
    have := InOrder.decidable r.time (later largest r.time) rs
    inferInstanceAs (Decidable (_ ∧ _ ∧ _))

namespace Log

variable {log log' log'' : Log} {rs rs' : List Record} {out : List Replayed} {clock time : Int64}

/-! ## What a program records -/

inductive Op where
  | setEnabled (enabled : Bool)
  | defineEvent (name signature : String)
  | defineStatistic (name signature : String)
  | updateStatistic (name : String) (value : Arg)
  | event (time : Int64) (name : String) (arg : Arg)
  | collectStatistics (eventTime now : Int64)

def perform (log : Log) : Op → Log
  | .setEnabled enabled => { log with enabled := enabled }
  | .defineEvent name signature => ((log.defineEvent name signature).map (·.1)).getD log
  | .defineStatistic name signature => log.defineStatistic name signature
  | .updateStatistic name value => log.updateStatistic name value
  | .event time name arg => log.eventWith time name arg
  | .collectStatistics eventTime now => log.collectStatistics eventTime now

def unlessOversize (time : Int64) (event : Event) (arg : Arg) : List Record :=
  if fits arg then [⟨time, event, arg⟩] else []

def recorded (log : Log) : Op → List Record
  | .event time name arg =>
    if log.enabled then
      match log.lookupEvent name arg.signature with
      | none => []
      | some event => unlessOversize time event arg
    else []
  | .collectStatistics eventTime now =>
    if log.enabled then
      (log.statistics.flatMap fun stat =>
        match stat.due with
        | none => []
        | some value => unlessOversize eventTime stat.event value) ++
      unlessOversize eventTime ⟨1, "perf.statisticsCollected", .x⟩ (.x (now - eventTime))
    else []
  | _ => []

def run : List Op → Log → Log
  | [], log => log
  | op :: ops, log => run ops (log.perform op)

def recordedBy : Log → List Op → List Record
  | _, [] => []
  | log, op :: ops => log.recorded op ++ recordedBy (log.perform op) ops

/-! ## What the replay shows of it -/

structure Good (log : Log) : Prop extends Defined log where
  statistics : ∀ stat ∈ log.statistics, stat.event ∈ log.events ∧
    ∀ value, stat.current = some value → stat.event.signature = value.signature

/-- From `log` to `log'` the events `rs` are recorded, and the replay goes on with what it shows of
them. -/
def Adds (log : Log) (rs : List Record) (log' : Log) : Prop :=
  ∀ out clock, log.Shows out clock → ∃ out' clock', log'.Shows (out ++ out') clock' ∧
    ∀ rs', shown log.lastTime clock (rs ++ rs') = out' ++ shown log'.lastTime clock' rs'

theorem Adds.trans (h : log.Adds rs log') (h' : log'.Adds rs' log'') :
    log.Adds (rs ++ rs') log'' := by
  intro out clock hshows
  obtain ⟨out', clock', hshows', hrest⟩ := h out clock hshows
  obtain ⟨out'', clock'', hshows'', hrest'⟩ := h' _ clock' hshows'
  refine ⟨out' ++ out'', clock'', (List.append_assoc ..).symm ▸ hshows'', fun rs'' => ?_⟩
  rw [List.append_assoc, hrest, hrest', List.append_assoc]

theorem Adds.nil {more : List Event} (hevents : log'.events = log.events ++ more)
    (hdef : log'.Defined) (hblocks : log'.blocks = log.blocks)
    (hstart : log'.startTime = log.startTime) (hlast : log'.lastTime = log.lastTime) :
    log.Adds [] log' := by
  intro out clock h
  obtain ⟨es, hes, hplay⟩ := h.entries
  refine ⟨[], clock, ⟨hdef, es, ⟨fun e he => ?_, hblocks ▸ hes.blocks⟩, ?_⟩, fun rs' => ?_⟩
  · rw [hevents]
    exact (hes.valid e he).append more
  · rw [hevents, hstart, play_more hes.valid, hplay, List.append_nil]
  · rw [hlast]
    rfl

theorem Adds.refl (log : Log) : log.Adds [] log := fun _ clock h =>
  Adds.nil (List.append_nil _).symm h.defined rfl rfl rfl _ clock h

theorem Adds.recordEvent (henabled : log.enabled = true) {event : Event} {arg : Arg}
    (hevent : event ∈ log.events) (hsig : event.signature = arg.signature) :
    log.Adds (unlessOversize time event arg) (log.recordEvent time event arg.bytes) := by
  by_cases hfits : fits arg = true
  · intro out clock h
    obtain ⟨hshows, hlast⟩ := h.recordEvent time henabled hevent hsig hfits
    refine ⟨_, _, hshows, fun rs' => ?_⟩
    rw [unlessOversize, if_pos hfits, hlast]
    rfl
  · have hsize : blockSize < arg.bytes.length ∨ blockSize < 4 + 2 + arg.bytes.length := by
      rw [fits, decide_eq_true_eq] at hfits
      omega
    rw [unlessOversize, if_neg hfits, Log.recordEvent, if_pos henabled, if_pos hsize]
    exact .refl log

/-! ## One lemma for each operation -/

theorem Good.congr (h : log.Good) (hevents : log'.events = log.events)
    (hstats : log'.statistics = log.statistics) : log'.Good :=
  ⟨h.toDefined.congr hevents, hevents ▸ hstats ▸ h.statistics⟩

theorem Good.defineEvent (h : log.Good) {name signature : String} {event : Event}
    (hdef : log.defineEvent name signature = some (log', event)) :
    log.Adds [] log' ∧ log'.Good ∧ event ∈ log'.events := by
  rw [Log.defineEvent] at hdef
  split at hdef
  · cases hdef
  split at hdef
  · cases hdef
  rename_i sig _ hlen
  split at hdef
  · cases hdef
  split at hdef
  · cases hdef
  cases hdef
  have hlength := h.length
  have hdefined : ({ log with
      events := log.events ++ [⟨UInt16.ofNat log.events.length, name, sig⟩] } : Log).Defined := by
    refine ⟨?_, ?_, fun i event hi => ?_⟩
    · obtain ⟨more, hmore⟩ := h.builtin
      exact ⟨more ++ [_], by rw [hmore, List.append_assoc]⟩
    · rw [List.length_append, List.length_singleton]
      omega
    · by_cases hlt : i < log.events.length
      · rw [List.getElem?_append_left hlt] at hi
        exact h.ids i event hi
      · have hi' := (List.getElem?_eq_some_iff.mp hi).1
        rw [List.length_append, List.length_singleton] at hi'
        have hiq : i = log.events.length := by omega
        rw [hiq, List.getElem?_append_right le_rfl, Nat.sub_self] at hi
        cases hi
        rw [hiq]
  refine ⟨.nil rfl hdefined rfl rfl rfl, ⟨hdefined, fun stat hstat => ?_⟩,
    List.mem_append_right _ List.mem_cons_self⟩
  exact ⟨List.mem_append_left _ (h.statistics stat hstat).1, (h.statistics stat hstat).2⟩

/-- The loop over the statistics. Induction on those that are left. -/
theorem Adds.statistics (time : Int64) (henabled : log.enabled = true) (stats : List Statistic)
    (hstats : ∀ stat ∈ stats, stat.event ∈ log.events ∧
      ∀ value, stat.current = some value → stat.event.signature = value.signature) :
    log.Adds (stats.flatMap fun stat =>
        match stat.due with
        | none => []
        | some value => unlessOversize time stat.event value)
      (stats.foldl (recordStatistic time) log) ∧
    ∃ lastTime blocks, stats.foldl (recordStatistic time) log =
      { log with lastTime := lastTime, blocks := blocks } := by
  induction stats generalizing log with
  | nil => exact ⟨.refl log, _, _, rfl⟩
  | cons stat stats ih =>
    obtain ⟨⟨hevent, hvalue⟩, hrest⟩ := List.forall_mem_cons.mp hstats
    have hhead : log.Adds (match stat.due with
        | none => []
        | some value => unlessOversize time stat.event value) (recordStatistic time log stat) ∧
        ∃ lastTime blocks, recordStatistic time log stat =
          { log with lastTime := lastTime, blocks := blocks } := by
      rw [recordStatistic]
      cases hdue : stat.due with
      | none => exact ⟨.refl log, _, _, rfl⟩
      | some value =>
        have hcurrent : stat.current = some value := by
          rw [Statistic.due] at hdue
          split at hdue
          · cases hdue
          · exact hdue
        exact ⟨.recordEvent henabled hevent (hvalue value hcurrent), recordEvent_eq ..⟩
    obtain ⟨hadds, lastTime, blocks, heq⟩ := hhead
    have henabled' : (recordStatistic time log stat).enabled = true := by
      rw [heq]
      exact henabled
    obtain ⟨hadds', heq'⟩ := ih henabled' (by rw [heq]; exact hrest)
    rw [List.flatMap_cons, List.foldl_cons]
    refine ⟨hadds.trans hadds', ?_⟩
    obtain ⟨lastTime', blocks', heq'⟩ := heq'
    rw [heq', heq]
    exact ⟨lastTime', blocks', rfl⟩

theorem mem_of_lookupEvent {name : String} {signature : Signature} {event : Event}
    (hlookup : log.lookupEvent name signature = some event) :
    event ∈ log.events ∧ event.signature = signature := by
  rw [Log.lookupEvent] at hlookup
  split at hlookup
  · cases hlookup
  · rename_i event' hname
    split at hlookup
    · rename_i hsig
      cases hlookup
      exact ⟨List.mem_of_find?_eq_some hname, hsig⟩
    · cases hlookup

/-- **Step lemma.** One case for each operation. -/
theorem Good.perform (h : log.Good) (op : Op) :
    log.Adds (log.recorded op) (log.perform op) ∧ (log.perform op).Good := by
  cases op with
  | setEnabled enabled =>
    exact ⟨.nil (List.append_nil _).symm (h.toDefined.congr rfl) rfl rfl rfl, h.congr rfl rfl⟩
  | defineEvent name signature =>
    show log.Adds [] ((_ : Option Log).getD log) ∧ Good ((_ : Option Log).getD log)
    cases hdef : log.defineEvent name signature with
    | none => exact ⟨.refl log, h⟩
    | some p =>
      obtain ⟨log', event⟩ := p
      exact ⟨(h.defineEvent hdef).1, (h.defineEvent hdef).2.1⟩
  | defineStatistic name signature =>
    show log.Adds [] (log.defineStatistic name signature) ∧ (log.defineStatistic name signature).Good
    rw [Log.defineStatistic]
    split
    · exact ⟨.refl log, h⟩
    · cases hdef : log.defineEvent name signature with
      | none => exact ⟨.refl log, h⟩
      | some p =>
        obtain ⟨log', event⟩ := p
        obtain ⟨hadds, hgood, hmem⟩ := h.defineEvent hdef
        refine ⟨hadds.trans (.nil (List.append_nil _).symm (hgood.toDefined.congr rfl) rfl rfl rfl),
          hgood.toDefined.congr rfl, fun stat hstat => ?_⟩
        rcases List.mem_append.mp hstat with hstat | hstat
        · exact hgood.statistics stat hstat
        · rw [List.mem_singleton.mp hstat]
          exact ⟨hmem, by simp⟩
  | updateStatistic name value =>
    refine ⟨.nil (List.append_nil _).symm (h.toDefined.congr rfl) rfl rfl rfl,
      h.toDefined.congr rfl, fun stat hstat => ?_⟩
    obtain ⟨stat', hstat', rfl⟩ := List.mem_map.mp hstat
    have hold := h.statistics stat' hstat'
    split
    · rename_i hmatch
      refine ⟨hold.1, fun v hv => ?_⟩
      cases hv
      exact hmatch.2
    · exact hold
  | event time name arg =>
    show log.Adds (log.recorded (.event time name arg)) (log.eventWith time name arg) ∧
      (log.eventWith time name arg).Good
    rw [recorded, eventWith]
    cases hlookup : log.lookupEvent name arg.signature with
    | none =>
      dsimp only
      rw [ite_self]
      exact ⟨.refl log, h⟩
    | some event =>
      obtain ⟨hmem, hsig⟩ := mem_of_lookupEvent hlookup
      obtain ⟨lastTime, blocks, heq⟩ := recordEvent_eq log time event arg.bytes
      refine ⟨?_, by dsimp only; rw [heq]; exact h.congr rfl rfl⟩
      dsimp only
      split
      · rename_i henabled
        exact .recordEvent henabled hmem hsig
      · rename_i henabled
        rw [Log.recordEvent, if_neg henabled]
        exact .refl log
  | collectStatistics eventTime now =>
    show log.Adds (log.recorded (.collectStatistics eventTime now))
      (log.collectStatistics eventTime now) ∧ (log.collectStatistics eventTime now).Good
    rw [recorded, Log.collectStatistics]
    split
    · rename_i henabled
      obtain ⟨hadds, lastTime, blocks, heq⟩ :=
        Adds.statistics eventTime henabled log.statistics h.statistics
      rw [heq] at hadds ⊢
      dsimp only
      rw [h.collected]
      -- the log with the values as they are now recorded
      generalize hlog : ({ log with
        lastTime := lastTime
        blocks := blocks
        statistics := log.statistics.map fun stat => { stat with last := stat.current } } : Log) = u
      have hevents : u.events = log.events := by rw [← hlog]
      have hgood : u.Good := by
        refine ⟨h.toDefined.congr hevents, fun stat hstat => ?_⟩
        rw [← hlog] at hstat
        obtain ⟨stat', hstat', rfl⟩ := List.mem_map.mp hstat
        exact ⟨hevents ▸ (h.statistics stat' hstat').1, (h.statistics stat' hstat').2⟩
      have hsame : Adds { log with lastTime := lastTime, blocks := blocks } [] u := by
        refine @Adds.nil _ _ [] ?_ hgood.toDefined ?_ ?_ ?_ <;> rw [← hlog]
        exact (List.append_nil _).symm
      have hmem : ⟨1, "perf.statisticsCollected", .x⟩ ∈ u.events := by
        obtain ⟨more, hmore⟩ := hgood.builtin
        rw [hmore]
        exact List.mem_append_left _ (List.mem_cons_of_mem _ List.mem_cons_self)
      have henabled' : u.enabled = true := by rw [← hlog]; exact henabled
      obtain ⟨lastTime', blocks', heq'⟩ := recordEvent_eq u eventTime
        ⟨1, "perf.statisticsCollected", .x⟩ (Arg.x (now - eventTime)).bytes
      refine ⟨hadds.trans (hsame.trans (.recordEvent henabled' hmem rfl)), ?_⟩
      dsimp only
      rw [heq']
      exact hgood.congr rfl rfl
    · exact ⟨.refl log, h⟩

/-- **A whole run.** Induction on the operations. -/
theorem Shows.run (h : log.Shows out clock) (hgood : log.Good) (ops : List Op) :
    (run ops log).replay = out ++ shown log.lastTime clock (recordedBy log ops) := by
  induction ops generalizing log out clock with
  | nil => rw [Log.run, h.replay, recordedBy, shown, List.append_nil]
  | cons op ops ih =>
    obtain ⟨hadds, hgood'⟩ := hgood.perform op
    obtain ⟨out', clock', hshows, hrest⟩ := hadds out clock h
    rw [Log.run, ih hshows hgood', recordedBy, hrest, List.append_assoc]

variable (start : Int64)

theorem Good.new : (new start).Good where
  builtin := ⟨[], rfl⟩
  length := by
    show 2 ≤ 65536
    omega
  ids i event hi := by
    match i with
    | 0 => cases hi; rfl
    | 1 => cases hi; rfl
    | i + 2 => cases hi
  statistics stat hstat := absurd hstat List.not_mem_nil

theorem Shows.new : (new start).Shows [] start where
  defined := (Good.new start).toDefined
  entries := ⟨[], ⟨by simp, [], rfl, rfl⟩, rfl⟩

theorem replay_run (ops : List Op) :
    (run ops (new start)).replay = shown start start (recordedBy (new start) ops) :=
  (Shows.new start).run (.new start) ops

end Log

/-! ## The clock of the replay -/

variable {last largest time : Int64} {rs : List Record}

theorem later_eq_of_lt (h : time < largest) : later largest time = largest :=
  if_neg (by rw [Int64.lt_iff_toInt_lt] at h ⊢; omega)

theorem toInt_later (a b : Int64) : (later a b).toInt = max a.toInt b.toInt := by
  rw [later]
  split
  · rename_i h
    rw [Int64.lt_iff_toInt_lt] at h
    omega
  · rename_i h
    rw [Int64.lt_iff_toInt_lt] at h
    omega

theorem add_delta {last time : Int64} (hle : last.toInt ≤ time.toInt)
    (hfits : time.toInt ≤ last.toInt + 0xffffffff) :
    last + Int64.ofNat (time.toInt - last.toInt).toNat = time := by
  rw [← Int64.toInt_inj, Int64.toInt_add, Int64.toInt_ofNat_of_lt (by omega)]
  have hsum : last.toInt + ((time.toInt - last.toInt).toNat : ℤ) = time.toInt := by omega
  rw [hsum]
  exact time.toInt_bmod

/-- The clock of the replay is right after an event exactly if the event is in order. Otherwise it
has been taken further than both the event and the largest time before it. -/
theorem advance_eq_later_iff (h : last.toInt ≤ largest.toInt) :
    advance last largest time = later largest time ↔
      last = largest ∨ time ≤ last ∨ (gap last time ∧ largest ≤ time) := by
  rw [Int64.le_iff_toInt_le, Int64.le_iff_toInt_le, ← Int64.toInt_inj (x := last)]
  rw [advance]
  split
  · rename_i hgap
    have hlt : last.toInt + 0xffffffff < time.toInt := of_decide_eq_true hgap
    rw [← Int64.toInt_inj, toInt_later]
    constructor
    · intro heq
      exact .inr (.inr ⟨hgap, by omega⟩)
    · rintro (heq | hle | ⟨-, hle⟩) <;> omega
  · rename_i hgap
    split
    · rename_i hlt
      have hlt' := hlt
      rw [Int64.lt_iff_toInt_lt] at hlt
      refine iff_of_true (later_eq_of_lt ?_).symm (.inr (.inl (by omega)))
      rw [Int64.lt_iff_toInt_lt]
      omega
    · rename_i hle
      rw [Int64.lt_iff_toInt_lt] at hle
      have hfar : ¬ last.toInt + 0xffffffff < time.toInt := fun h => hgap (decide_eq_true h)
      have hdelta : last + Int64.ofNat (time.toInt - last.toInt).toNat = time :=
        add_delta (by omega) (by omega)
      by_cases hsame : last = largest
      · -- both clocks are the same
        rw [← hsame, hdelta]
        refine iff_of_true ?_ (.inl rfl)
        rw [← Int64.toInt_inj, toInt_later]
        omega
      by_cases hzero : time.toInt = last.toInt
      · -- the delta is 0
        have hnat : (time.toInt - last.toInt).toNat = 0 := by omega
        refine iff_of_true ?_ (.inr (.inl (by omega)))
        rw [hnat, ← Int64.toInt_inj, toInt_later, show Int64.ofNat 0 = 0 from rfl, Int64.add_zero]
        omega
      · -- the clock of the replay is ahead, and goes on by the delta
        refine iff_of_false (fun heq => ?_) ?_
        · rw [later] at heq
          split at heq
          · exact hsame ((Int64.add_left_inj _).mp (heq.trans hdelta.symm)).symm
          · have hnone := Int64.toInt_inj.mpr (Int64.add_eq_left.mp heq)
            rw [Int64.toInt_ofNat_of_lt (by omega)] at hnone
            have : (time.toInt - last.toInt).toNat = 0 := Int.ofNat_inj.mp hnone
            omega
        · rintro (heq | hle' | ⟨hgap', -⟩)
          · exact hsame (Int64.toInt_inj.mp heq)
          · omega
          · exact hgap hgap'

theorem length_shown_le (last clock : Int64) (rs : List Record) :
    (shown last clock rs).length ≤ rs.length := by
  induction rs generalizing last clock with
  | nil => exact le_rfl
  | cons r rs ih =>
    have hadded : (added (advance last clock r.time) r.event r.arg).length ≤ 1 := by
      rw [added]
      split
      · exact Nat.zero_le 1
      · exact le_rfl
    have hrest := ih r.time (after (advance last clock r.time) r.event r.arg)
    rw [shown, List.length_append, List.length_cons]
    omega

theorem length_expected (largest : Int64) (rs : List Record) :
    (expected largest rs).length = rs.length := by
  induction rs generalizing largest with
  | nil => rfl
  | cons r rs ih => rw [expected, List.length_cons, List.length_cons, ih]

/-- **The replay is as expected** exactly for events in order. Induction on the events, with the
clock of the replay at the largest time so far. -/
theorem shown_eq_expected_iff (h : last.toInt ≤ largest.toInt) :
    shown last largest rs = expected largest rs ↔ InOrder last largest rs := by
  induction rs generalizing last largest with
  | nil => exact iff_of_true rfl trivial
  | cons r rs ih =>
    rw [shown, expected, InOrder]
    by_cases hid : r.event.id = setTime
    · refine iff_of_false (fun heq => ?_) fun hin => hin.1 hid
      -- the event is not replayed, so that there is one too few
      rw [added, if_pos hid, List.nil_append] at heq
      have hlength := congrArg List.length heq
      have hle := length_shown_le r.time (after (advance last largest r.time) r.event r.arg) rs
      rw [List.length_cons, length_expected] at hlength
      omega
    · have hnext : r.time.toInt ≤ (later largest r.time).toInt := by
        rw [toInt_later]
        omega
      rw [added, if_neg hid, List.singleton_append, after, if_neg hid, List.cons.injEq,
        Replayed.mk.injEq, ← advance_eq_later_iff h]
      constructor
      · rintro ⟨⟨hclock, -⟩, hrest⟩
        rw [hclock] at hrest
        exact ⟨hid, hclock, (ih hnext).mp hrest⟩
      · rintro ⟨-, hclock, hrest⟩
        rw [hclock]
        exact ⟨⟨rfl, rfl, rfl, rfl⟩, (ih hnext).mpr hrest⟩

/-- **The replay undoes the recording.** A run of the program is replayed as it was recorded
exactly if the recorded events are in order. -/
theorem replay_run_iff (start : Int64) (ops : List Op) :
    (run ops (new start)).replay = expected start (recordedBy (new start) ops) ↔
      InOrder start start (recordedBy (new start) ops) := by
  rw [replay_run, shown_eq_expected_iff le_rfl]

example :
    InOrder 0 0 (recordedBy (new 0) [.setEnabled true, .defineEvent "app.frame" "i",
      .event 1000 "app.frame" (.i 1), .event 5000000000 "app.frame" (.i 2),
      .collectStatistics 5000001000 5000001500]) := by
  decide

/-- An event of a callback of `collect_statistics` at 1500, the statistics themselves with the
time 1000 from before the callbacks, and an event at 2000. -/
def lateCallback : List Op :=
  [.setEnabled true, .defineEvent "app.frame" "", .event 1500 "app.frame" .none,
    .collectStatistics 1000 1600, .event 2000 "app.frame" .none]

theorem replay_lateCallback : (run lateCallback (new 0)).replay.map (·.time) = [1500, 1500, 2500] ∧
      (expected 0 (recordedBy (new 0) lateCallback)).map (·.time) = [1500, 1500, 2000] := by
  decide

theorem not_replay_run :
    ¬ ∀ start ops, (∀ r ∈ recordedBy (new start) ops, start ≤ r.time ∧ r.event.id ≠ setTime) →
      (run ops (new start)).replay = expected start (recordedBy (new start) ops) := by
  intro h
  have hreplay := h 0 lateCallback (by decide)
  have htimes := congrArg (List.map (·.time)) hreplay
  rw [replay_lateCallback.1, replay_lateCallback.2] at htimes
  revert htimes
  decide

end PerfLog
