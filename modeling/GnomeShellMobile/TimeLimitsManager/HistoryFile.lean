import Mathlib.Data.Rat.Lemmas
import GnomeShellMobile.TimeLimitsManager.LimitState
import GnomeShellMobile.TimeLimitsManager.StoredHistory

/-!
# TimeLimitsManager — the history file, written and read

What `_storeTransitions` writes and what `_loadTransitions` makes of any contents. Contents are the
value that `JSON.parse` gives; `JSON.stringify` writes a safe integer with all its digits, so the
value that is read back is the one that was written.

* `readHistory`: the checks of the reader on each entry; the order of the times is checked by
  `loadEntries`.
* `Accepted`: the files it accepts. A time is compared with that of the last entry that was kept,
  so entries that are dropped may stand in any order.
* `stored_load_iff`: which histories survive the way through the file, and for which files the
  reader is as strict as its comment says.
-/

namespace TimeLimitsManager

/-! ## Contents -/

/-- The values of `JSON.parse`. -/
inductive Json where
  | null
  | bool (b : Bool)
  | number (x : ℚ)
  | infinity (negative : Bool)
  | string (s : String)
  | array (l : List Json)
  | object (fields : String → Option Json)

def maxSafeInteger : Int := 2 ^ 53 - 1

namespace Json

/-- `validStates.includes`. -/
def userState? : Json → Option UserState
  | .number x => if x = 0 then some .inactive else if x = 1 then some .active else none
  | _ => none

def safeInteger? : Json → Option Int
  | .number x => if x.den = 1 ∧ |x.num| ≤ maxSafeInteger then some x.num else none
  | _ => none

/-- The fields of an entry that `_loadTransitions` accepts. An array is an object too, but it has no
such keys. -/
def readEntry : Json → Option Transition
  | .object fields =>
    (fields "oldState").bind fun oldState =>
    (fields "newState").bind fun newState =>
    (fields "wallTimeSecs").bind fun wallTimeSecs =>
    oldState.userState?.bind fun oldState =>
    newState.userState?.bind fun newState =>
    wallTimeSecs.safeInteger?.map fun wallTimeSecs => ⟨oldState, newState, wallTimeSecs⟩
  | _ => none

def readHistory : Json → Contents
  | .array l => .entries (l.map readEntry)
  | _ => .notAnArray

end Json

def UserState.value : UserState → ℚ
  | .inactive => 0
  | .active => 1

namespace Transition

def toJson (e : Transition) : Json :=
  .object fun key =>
    if key = "oldState" then some (.number e.oldState.value)
    else if key = "newState" then some (.number e.newState.value)
    else if key = "wallTimeSecs" then some (.number e.wallTimeSecs)
    else none

end Transition

def stringify (l : List Transition) : Json := .array (l.map Transition.toJson)

def FileOp.written : FileOp → ReadResult
  | .delete => .notFound
  | .replace l => .contents (stringify l).readHistory

/-! ## What is claimed -/

section Claim

variable (tz : LocalTime) (s s' : State)

structure RoundTrip : Prop where
  succeeds : (s'.loadTransitions tz s.cleanTransitions.storeOp.written).2 = true
  transitions : (s'.loadTransitions tz s.cleanTransitions.storeOp.written).1.stateTransitions =
    storeTransitions s.clock.realTimeSecs s.stateTransitions
  userState : (s'.loadTransitions tz s.cleanTransitions.storeOp.written).1.userState =
    ((storeTransitions s.clock.realTimeSecs s.stateTransitions).getLast?.map (·.newState)).getD
      s'.userState

def AcceptsOnlyHistories (file : Json) : Prop :=
  (s'.loadTransitions tz (.contents file.readHistory)).2 = true →
    ∃ (entries : List Json) (l : List Transition), file = .array entries ∧
      entries.map Json.readEntry = l.map some ∧ (∀ e ∈ l, e.oldState ≠ e.newState) ∧
      l.Pairwise fun a b => a.wallTimeSecs ≤ b.wallTimeSecs

end Claim

variable (nowSecs : Int)

def KeptTimesSafe (l : List Transition) : Prop :=
  ∀ e ∈ l, filterOldTransition e false nowSecs ∨
      l.getLast? = some e ∧ filterOldTransition e true nowSecs →
    0 ≤ e.wallTimeSecs ∧ e.wallTimeSecs ≤ maxSafeInteger

instance (l : List Transition) : Decidable (KeptTimesSafe nowSecs l) :=
  List.decidableBAll _ l

/-- The file is no list of transitions since the epoch, or a later entry comes before a kept one, or
no dropped entry is followed by an earlier one. -/
def DroppedInOrder (file : Json) : Prop :=
  ∀ (entries : List Json) (l : List Transition), file = .array entries →
    entries.map Json.readEntry = l.map some →
    (∀ e ∈ l, e.oldState ≠ e.newState ∧ 0 ≤ e.wallTimeSecs) →
    (l.Pairwise fun a b => filterOldTransition a false nowSecs → a.wallTimeSecs ≤ b.wallTimeSecs) →
    l.IsChain fun a b => filterOldTransition a false nowSecs = false →
      a.wallTimeSecs ≤ b.wallTimeSecs

variable {tz : LocalTime} {s s' : State} {now previous : Int} {l r : List Transition}
  {a b e : Transition}

/-! ## Entries -/

theorem readEntry_toJson (e : Transition) :
    e.toJson.readEntry = if |e.wallTimeSecs| ≤ maxSafeInteger then some e else none := by
  have hstate : ∀ u : UserState, (Json.number u.value).userState? = some u := by
    intro u
    cases u with
    | inactive => simp [Json.userState?, UserState.value]
    | active => simp [Json.userState?, UserState.value]
  have htime : (Json.number e.wallTimeSecs).safeInteger? =
      if |e.wallTimeSecs| ≤ maxSafeInteger then some e.wallTimeSecs else none := by
    rw [Json.safeInteger?, Rat.den_intCast, Rat.num_intCast]
    simp
  show ((Json.number e.oldState.value).userState?.bind fun oldState =>
    (Json.number e.newState.value).userState?.bind fun newState =>
    (Json.number e.wallTimeSecs).safeInteger?.map fun wallTimeSecs =>
      (⟨oldState, newState, wallTimeSecs⟩ : Transition)) = _
  rw [hstate, hstate, htime]
  show Option.map _ _ = _
  split
  · rfl
  · rfl

theorem readEntries_toJson_iff : (l.map Transition.toJson).map Json.readEntry = r.map some ↔
    r = l ∧ ∀ e ∈ l, |e.wallTimeSecs| ≤ maxSafeInteger := by
  have hread : (∀ e ∈ l, |e.wallTimeSecs| ≤ maxSafeInteger) →
      (l.map Transition.toJson).map Json.readEntry = l.map some := by
    intro h
    rw [List.map_map]
    apply List.map_congr_left
    intro e he
    show e.toJson.readEntry = some e
    rw [readEntry_toJson, if_pos (h e he)]
  constructor
  · intro heq
    have hsafe : ∀ e ∈ l, |e.wallTimeSecs| ≤ maxSafeInteger := by
      intro e he
      have hmem : e.toJson.readEntry ∈ r.map some :=
        heq ▸ List.mem_map_of_mem (List.mem_map_of_mem he)
      obtain ⟨e', -, hsome⟩ := List.mem_map.mp hmem
      rw [readEntry_toJson] at hsome
      exact (Option.ite_none_right_eq_some.mp hsome.symm).1
    refine ⟨List.map_injective_iff.mpr (Option.some_injective _) ?_, hsafe⟩
    exact heq.symm.trans (hread hsafe)
  · rintro ⟨rfl, hsafe⟩
    exact hread hsafe

/-! ## Reading -/

/-- The loop of `_loadTransitions` goes through. -/
def Accepted (nowSecs : Int) : Int → List Transition → Prop
  | _, [] => True
  | previousWallTimeSecs, e :: rest =>
    e.oldState ≠ e.newState ∧ previousWallTimeSecs ≤ e.wallTimeSecs ∧
      Accepted nowSecs
        (if filterOldTransition e rest.isEmpty nowSecs then e.wallTimeSecs else previousWallTimeSecs)
        rest

/-- Induction on the entries. -/
theorem loadEntries_succeeds_iff {entries : List (Option Transition)} :
    (State.loadEntries tz now entries previous s).2 = true ↔
      ∃ l, entries = l.map some ∧ Accepted now previous l := by
  induction entries generalizing previous s with
  | nil => exact iff_of_true rfl ⟨[], rfl, trivial⟩
  | cons entry rest ih =>
    cases entry with
    | none =>
      refine iff_of_false (by simp [State.loadEntries]) ?_
      rintro ⟨l, heq, -⟩
      cases l with
      | nil => cases heq
      | cons e l => cases heq
    | some e =>
      have hcons : (∃ l, some e :: rest = l.map some ∧ Accepted now previous l) ↔
          ∃ l, rest = l.map some ∧ Accepted now previous (e :: l) := by
        constructor
        · rintro ⟨l, heq, hl⟩
          cases l with
          | nil => cases heq
          | cons e' l =>
            obtain ⟨hhead, htail⟩ := List.cons.inj heq
            obtain rfl := Option.some.inj hhead
            exact ⟨l, htail, hl⟩
        · rintro ⟨l, rfl, hl⟩
          exact ⟨e :: l, rfl, hl⟩
      rw [hcons, State.loadEntries]
      by_cases hbad : e.oldState = e.newState ∨ e.wallTimeSecs < previous
      · rw [if_pos hbad]
        refine iff_of_false Bool.false_ne_true ?_
        rintro ⟨l, -, hchanges, hle, -⟩
        rcases hbad with heq | hlt
        · exact hchanges heq
        · omega
      · rw [if_neg hbad]
        obtain ⟨hchanges, hle⟩ := not_or.mp hbad
        -- the list of what is left is empty exactly when that of its values is
        have hempty : ∀ l : List Transition, rest = l.map some → rest.isEmpty = l.isEmpty := by
          rintro l rfl
          exact List.isEmpty_map
        split
        · next hkept =>
          rw [ih]
          refine exists_congr fun l => and_congr_right fun heq => ?_
          rw [hempty l heq] at hkept
          rw [Accepted, if_pos hkept]
          exact ⟨fun h => ⟨hchanges, not_lt.mp hle, h⟩, fun h => h.2.2⟩
        · next hdropped =>
          rw [ih]
          refine exists_congr fun l => and_congr_right fun heq => ?_
          rw [hempty l heq] at hdropped
          rw [Accepted, if_neg hdropped]
          exact ⟨fun h => ⟨hchanges, not_lt.mp hle, h⟩, fun h => h.2.2⟩

theorem accepted_iff : Accepted now previous l ↔
    (∀ e ∈ l, e.oldState ≠ e.newState ∧ previous ≤ e.wallTimeSecs) ∧
      l.Pairwise fun a b => filterOldTransition a false now → a.wallTimeSecs ≤ b.wallTimeSecs := by
  induction l generalizing previous with
  | nil => exact iff_of_true trivial ⟨fun e he => absurd he List.not_mem_nil, .nil⟩
  | cons e rest ih =>
    rw [Accepted, ih, List.forall_mem_cons, List.pairwise_cons]
    constructor
    · rintro ⟨hchanges, hle, hrest, hpairs⟩
      refine ⟨⟨⟨hchanges, hle⟩, fun b hb => ⟨(hrest b hb).1, ?_⟩⟩, fun b hb hkept => ?_, hpairs⟩
      · have hb' := (hrest b hb).2
        split at hb'
        · exact hle.trans hb'
        · exact hb'
      · have hb' := (hrest b hb).2
        rw [List.isEmpty_eq_false_iff_exists_mem.mpr ⟨b, hb⟩, if_pos hkept] at hb'
        exact hb'
    · rintro ⟨⟨⟨hchanges, hle⟩, hrest⟩, hfirst, hpairs⟩
      refine ⟨hchanges, hle, fun b hb => ⟨(hrest b hb).1, ?_⟩, hpairs⟩
      rw [List.isEmpty_eq_false_iff_exists_mem.mpr ⟨b, hb⟩]
      split
      · next hkept => exact hfirst b hb hkept
      · exact (hrest b hb).2

theorem accepted_sorted_iff
    (h : l.Pairwise fun a b => filterOldTransition a false now → a.wallTimeSecs ≤ b.wallTimeSecs) :
    (l.Pairwise fun a b => a.wallTimeSecs ≤ b.wallTimeSecs) ↔
      l.IsChain fun a b => filterOldTransition a false now = false →
        a.wallTimeSecs ≤ b.wallTimeSecs := by
  constructor
  · exact fun hsorted => hsorted.isChain.imp fun a b hab _ => hab
  · intro hchain
    have htrans : IsTrans Transition fun a b => a.wallTimeSecs ≤ b.wallTimeSecs :=
      ⟨fun _ _ _ hab hbc => le_trans hab hbc⟩
    rw [← List.isChain_iff_pairwise]
    induction l with
    | nil => exact .nil
    | cons a r ih =>
      cases r with
      | nil => exact .singleton a
      | cons b r =>
        obtain ⟨hnext, hrest⟩ := List.isChain_cons_cons.mp hchain
        obtain ⟨hfirst, hpairs⟩ := List.pairwise_cons.mp h
        refine List.isChain_cons_cons.mpr ⟨?_, ih hpairs hrest⟩
        cases hk : filterOldTransition a false now with
        | true => exact hfirst b List.mem_cons_self hk
        | false => exact hnext hk

theorem loadTransitions_succeeds_iff {file : Json} :
    (s.loadTransitions tz (.contents file.readHistory)).2 = true ↔
      ∃ (entries : List Json) (l : List Transition), file = .array entries ∧
        entries.map Json.readEntry = l.map some ∧ Accepted s.clock.realTimeSecs 0 l := by
  cases file with
  | array entries =>
    show (State.loadEntries tz s.clock.realTimeSecs (entries.map Json.readEntry) 0
      { s with freezes := s.freezes + 1 }).2 = true ↔ _
    rw [loadEntries_succeeds_iff]
    constructor
    · rintro ⟨l, heq, hl⟩
      exact ⟨entries, l, rfl, heq, hl⟩
    · rintro ⟨entries', l, heq, hread, hl⟩
      cases heq
      exact ⟨l, hread, hl⟩
  | null | bool | number | infinity | string | object =>
    refine iff_of_false (by simp [Json.readHistory, State.loadTransitions]) ?_
    rintro ⟨entries, l, heq, -⟩
    cases heq

theorem acceptsOnlyHistories_iff {file : Json} :
    AcceptsOnlyHistories tz s file ↔ DroppedInOrder s.clock.realTimeSecs file := by
  rw [AcceptsOnlyHistories, loadTransitions_succeeds_iff]
  constructor
  · rintro h entries l rfl hread hentries hkept
    obtain ⟨entries', l', heq, hread', -, hsorted⟩ :=
      h ⟨entries, l, rfl, hread, accepted_iff.mpr ⟨hentries, hkept⟩⟩
    cases heq
    have hsame : l = l' := List.map_injective_iff.mpr (Option.some_injective _)
      (hread.symm.trans hread')
    exact (accepted_sorted_iff hkept).mp (hsame ▸ hsorted)
  · rintro h ⟨entries, l, rfl, hread, haccepted⟩
    obtain ⟨hentries, hkept⟩ := accepted_iff.mp haccepted
    exact ⟨entries, l, rfl, hread, fun e he => (hentries e he).1,
      (accepted_sorted_iff hkept).mpr (h entries l rfl hread hentries hkept)⟩

/-! ## What is written is kept -/

def Kept (nowSecs : Int) : List Transition → Prop
  | [] => True
  | e :: rest => filterOldTransition e rest.isEmpty nowSecs = true ∧ Kept nowSecs rest

theorem trimTransitions_sublist : (trimTransitions now l).Sublist l := by
  induction l with
  | nil => exact .slnil
  | cons e rest ih =>
    rw [trimTransitions]
    split
    · exact ih.cons_cons e
    · exact ih.cons e

theorem storeTransitions_sublist (now : Int) (l : List Transition) :
    (storeTransitions now l).Sublist l :=
  (filterPairs_sublist _).trans trimTransitions_sublist

theorem filterOldTransition_last {isLast : Bool} (h : filterOldTransition e isLast now = true)
    (isLast' : Bool) (hlast : isLast = true → isLast' = true) :
    filterOldTransition e isLast' now = true := by
  rw [filterOldTransition, Bool.and_eq_true, Bool.or_eq_true] at h ⊢
  exact ⟨h.1, h.2.imp_right hlast⟩

theorem kept_trimTransitions : Kept now (trimTransitions now l) := by
  induction l with
  | nil => exact trivial
  | cons e rest ih =>
    rw [trimTransitions]
    split
    · next hkept =>
      refine ⟨filterOldTransition_last hkept _ fun hempty => ?_, ih⟩
      rw [List.isEmpty_iff.mp hempty]
      rfl
    · exact ih

theorem filterPairs_isEmpty : (filterPairs l).isEmpty = l.isEmpty := by
  fun_induction filterPairs l with
  | case1 => rfl
  | case2 first => rfl
  | case3 first second rest hpair ih => exact ih
  | case4 first second rest hpair ih => rfl

theorem Kept.filterPairs (h : Kept now l) : Kept now (filterPairs l) := by
  fun_induction TimeLimitsManager.filterPairs l with
  | case1 => exact h
  | case2 first => exact h
  | case3 first second rest hpair ih => exact ih h.2
  | case4 first second rest hpair ih =>
    refine ⟨?_, ih h.2⟩
    rw [filterPairs_isEmpty]
    exact h.1

theorem kept_storeTransitions (now : Int) (l : List Transition) :
    Kept now (storeTransitions now l) :=
  kept_trimTransitions.filterPairs

theorem mem_trimTransitions_iff : e ∈ trimTransitions now l ↔ e ∈ l ∧
    (filterOldTransition e false now ∨ l.getLast? = some e ∧ filterOldTransition e true now) := by
  induction l with
  | nil => exact iff_of_false List.not_mem_nil fun h => List.not_mem_nil h.1
  | cons a rest ih =>
    have hlast : filterOldTransition a false now = true → filterOldTransition a true now = true :=
      fun h => filterOldTransition_last h true fun _ => rfl
    cases rest with
    | nil =>
      by_cases ha : filterOldTransition a true now = true
      · simp only [trimTransitions, List.isEmpty_nil, if_pos ha, List.mem_singleton,
          List.getLast?_singleton, Option.some.injEq]
        constructor
        · rintro rfl
          exact ⟨rfl, .inr ⟨rfl, ha⟩⟩
        · exact And.left
      · simp only [trimTransitions, List.isEmpty_nil, if_neg ha, List.mem_singleton,
          List.getLast?_singleton, Option.some.injEq]
        refine iff_of_false List.not_mem_nil ?_
        rintro ⟨rfl, hfalse | ⟨-, htrue⟩⟩
        · exact ha (hlast hfalse)
        · exact ha htrue
    | cons b rest =>
      rw [List.getLast?_cons_cons, trimTransitions]
      by_cases ha : filterOldTransition a false now = true
      · rw [List.isEmpty_cons, if_pos ha, List.mem_cons, ih, List.mem_cons (a := e) (b := a)]
        constructor
        · rintro (rfl | ⟨hmem, hkept⟩)
          · exact ⟨.inl rfl, .inl ha⟩
          · exact ⟨.inr hmem, hkept⟩
        · rintro ⟨rfl | hmem, hkept⟩
          · exact .inl rfl
          · exact .inr ⟨hmem, hkept⟩
      · rw [List.isEmpty_cons, if_neg ha, ih, List.mem_cons (a := e) (b := a)]
        constructor
        · rintro ⟨hmem, hkept⟩
          exact ⟨.inr hmem, hkept⟩
        · rintro ⟨rfl | hmem, hkept⟩
          · rcases hkept with hfalse | ⟨hlast, htrue⟩
            · exact absurd hfalse ha
            · exact ⟨List.mem_of_getLast? hlast, .inr ⟨hlast, htrue⟩⟩
          · exact ⟨hmem, hkept⟩

theorem exists_mem_filterPairs (l : List Transition) :
    ∀ e ∈ l, ∃ e' ∈ filterPairs l, e'.wallTimeSecs = e.wallTimeSecs := by
  fun_induction filterPairs l with
  | case1 => exact fun e he => absurd he List.not_mem_nil
  | case2 first => exact fun e he => ⟨e, he, rfl⟩
  | case3 first second rest hpair ih =>
    intro e he
    rcases List.mem_cons.mp he with rfl | he
    · obtain ⟨e', hmem, htime⟩ := ih second List.mem_cons_self
      exact ⟨e', hmem, htime.trans hpair.1.symm⟩
    · exact ih e he
  | case4 first second rest hpair ih =>
    intro e he
    rcases List.mem_cons.mp he with rfl | he
    · exact ⟨e, List.mem_cons_self, rfl⟩
    · obtain ⟨e', hmem, htime⟩ := ih e he
      exact ⟨e', List.mem_cons_of_mem _ hmem, htime⟩

/-! ## The way through the file -/

theorem State.updateState_frame (s : State) : (s.updateState tz).stateTransitions = s.stateTransitions ∧
    (s.updateState tz).userState = s.userState := by
  obtain ⟨scheduled, hscheduled, heq⟩ := s.updateState_cases tz
  have hsave : ∀ (u : State) (n : TimeLimitsState),
      (u.saveState n).stateTransitions = u.stateTransitions ∧
        (u.saveState n).userState = u.userState := by
    intro u n
    rw [State.saveState]
    split <;> exact ⟨rfl, rfl⟩
  rw [heq]
  obtain ⟨htransitions, huser⟩ := hsave scheduled (s.nextState tz)
  rcases hscheduled with rfl | ⟨t, rfl⟩
  · exact ⟨htransitions, huser⟩
  · exact ⟨htransitions, huser⟩

theorem State.addTransition_frame (tz : LocalTime) (s : State) (e : Transition) (recalculate : Bool) :
    (s.addTransition tz e.oldState e.newState e.wallTimeSecs recalculate).stateTransitions =
        s.stateTransitions ++ [e] ∧
      (s.addTransition tz e.oldState e.newState e.wallTimeSecs recalculate).userState =
        e.newState := by
  rw [State.addTransition]
  split
  · exact State.updateState_frame _
  · exact ⟨rfl, rfl⟩

/-- Induction on the entries, all of which are kept. -/
theorem loadEntries_kept (tz : LocalTime) (hkept : Kept now l) (haccepted : Accepted now previous l) :
    (State.loadEntries tz now (l.map some) previous s).1.stateTransitions = s.stateTransitions ++ l ∧
      (State.loadEntries tz now (l.map some) previous s).1.userState =
        (l.getLast?.map (·.newState)).getD s.userState := by
  induction l generalizing previous s with
  | nil => exact ⟨(List.append_nil _).symm, rfl⟩
  | cons e rest ih =>
    obtain ⟨hchanges, hle, hrest⟩ := haccepted
    have hempty : (rest.map some).isEmpty = rest.isEmpty := List.isEmpty_map
    rw [if_pos hkept.1] at hrest
    rw [List.map_cons, State.loadEntries, if_neg (not_or.mpr ⟨hchanges, not_lt.mpr hle⟩), hempty,
      if_pos hkept.1]
    obtain ⟨htransitions, huser⟩ := State.addTransition_frame tz s e rest.isEmpty
    obtain ⟨hall, hlast⟩ :=
      ih (s := s.addTransition tz e.oldState e.newState e.wallTimeSecs rest.isEmpty) hkept.2 hrest
    refine ⟨?_, ?_⟩
    · rw [hall, htransitions, List.append_assoc]
      rfl
    · rw [hlast, huser]
      cases rest with
      | nil => rfl
      | cons b rest => rw [List.getLast?_cons_cons]; rfl

theorem roundTrip_iff (hclock : s'.clock.realTimeSecs = s.clock.realTimeSecs)
    (hfresh : s'.stateTransitions = [])
    (hsorted : s.stateTransitions.Pairwise fun a b => a.wallTimeSecs ≤ b.wallTimeSecs)
    (hchanges : ∀ e ∈ s.stateTransitions, e.oldState ≠ e.newState) :
    RoundTrip tz s s' ↔ KeptTimesSafe s.clock.realTimeSecs s.stateTransitions := by
  have hkept : KeptTimesSafe s.clock.realTimeSecs s.stateTransitions ↔
      ∀ e ∈ storeTransitions s.clock.realTimeSecs s.stateTransitions,
        0 ≤ e.wallTimeSecs ∧ |e.wallTimeSecs| ≤ maxSafeInteger := by
    constructor
    · intro h e he
      obtain ⟨hmem, hkeep⟩ := mem_trimTransitions_iff.mp ((filterPairs_sublist _).subset he)
      obtain ⟨hpos, hle⟩ := h e hmem hkeep
      exact ⟨hpos, (abs_of_nonneg hpos).le.trans hle⟩
    · intro h e hmem hkeep
      obtain ⟨e', he', htime⟩ :=
        exists_mem_filterPairs _ e (mem_trimTransitions_iff.mpr ⟨hmem, hkeep⟩)
      obtain ⟨hpos, hle⟩ := h e' he'
      rw [htime] at hpos hle
      exact ⟨hpos, (abs_of_nonneg hpos).ge.trans hle⟩
  rw [hkept]
  have hclean : s.cleanTransitions.stateTransitions =
      storeTransitions s.clock.realTimeSecs s.stateTransitions := rfl
  have hsub := storeTransitions_sublist s.clock.realTimeSecs s.stateTransitions
  have hpairs := hsorted.sublist hsub
  have hchange : ∀ e ∈ storeTransitions s.clock.realTimeSecs s.stateTransitions,
      e.oldState ≠ e.newState := fun e he => hchanges e (hsub.subset he)
  have hall := kept_storeTransitions s.clock.realTimeSecs s.stateTransitions
  generalize hl : storeTransitions s.clock.realTimeSecs s.stateTransitions = l at *
  cases hempty : l.isEmpty with
  | true =>
    -- the file is deleted
    have hnil := List.isEmpty_iff.mp hempty
    have hop : s.cleanTransitions.storeOp = .delete := if_pos (hclean ▸ hempty)
    refine iff_of_true ⟨?_, ?_, ?_⟩ fun e he => absurd (hnil ▸ he) List.not_mem_nil
    · rw [hop]
      rfl
    · rw [hop, hl, hnil]
      exact hfresh
    · rw [hop, hl, hnil]
      rfl
  | false =>
    have hop : s.cleanTransitions.storeOp = .replace l := by
      rw [State.storeOp, hclean, hempty]
      rfl
    have hsucceeds : (s'.loadTransitions tz (.contents (stringify l).readHistory)).2 = true ↔
        (∀ e ∈ l, |e.wallTimeSecs| ≤ maxSafeInteger) ∧ Accepted s.clock.realTimeSecs 0 l := by
      rw [loadTransitions_succeeds_iff, hclock]
      constructor
      · rintro ⟨entries, r, heq, hread, haccepted⟩
        cases heq
        obtain ⟨rfl, hsafe⟩ := readEntries_toJson_iff.mp hread
        exact ⟨hsafe, haccepted⟩
      · rintro ⟨hsafe, haccepted⟩
        exact ⟨_, l, rfl, readEntries_toJson_iff.mpr ⟨rfl, hsafe⟩, haccepted⟩
    constructor
    · rintro ⟨hload, -, -⟩
      rw [hop] at hload
      obtain ⟨hsafe, haccepted⟩ := hsucceeds.mp hload
      intro e he
      exact ⟨((accepted_iff.mp haccepted).1 e he).2, hsafe e he⟩
    · intro h
      have hsafe : ∀ e ∈ l, |e.wallTimeSecs| ≤ maxSafeInteger := fun e he => (h e he).2
      have haccepted : Accepted s.clock.realTimeSecs 0 l := accepted_iff.mpr
        ⟨fun e he => ⟨hchange e he, (h e he).1⟩, hpairs.imp fun hab => fun _ => hab⟩
      obtain ⟨htransitions, huser⟩ := loadEntries_kept tz
        (s := { s' with freezes := s'.freezes + 1 }) hall haccepted
      have hread : (stringify l).readHistory = .entries (l.map some) :=
        congrArg Contents.entries (readEntries_toJson_iff.mpr ⟨rfl, hsafe⟩)
      refine ⟨?_, ?_, ?_⟩
      · rw [hop]
        exact hsucceeds.mpr ⟨hsafe, haccepted⟩
      · rw [hop, hl, FileOp.written, hread]
        show (State.loadEntries tz s'.clock.realTimeSecs _ 0 _).1.stateTransitions = l
        rw [hclock, htransitions]
        exact congrArg (· ++ l) hfresh
      · rw [hop, hl, FileOp.written, hread]
        show (State.loadEntries tz s'.clock.realTimeSecs _ 0 _).1.userState = _
        rw [hclock, huser]

/-- **Storing and loading.** A history in order survives the way through the file, and only
histories in order are accepted, if and only if the times that are kept are safe and no dropped entry
of an accepted file is followed by an earlier one. -/
theorem stored_load_iff (tz : LocalTime) (s s' : State) (file : Json)
    (hclock : s'.clock.realTimeSecs = s.clock.realTimeSecs) (hfresh : s'.stateTransitions = [])
    (hsorted : s.stateTransitions.Pairwise fun a b => a.wallTimeSecs ≤ b.wallTimeSecs)
    (hchanges : ∀ e ∈ s.stateTransitions, e.oldState ≠ e.newState) :
    RoundTrip tz s s' ∧ AcceptsOnlyHistories tz s' file ↔
      KeptTimesSafe s.clock.realTimeSecs s.stateTransitions ∧
        DroppedInOrder s.clock.realTimeSecs file := by
  rw [roundTrip_iff hclock hfresh hsorted hchanges, acceptsOnlyHistories_iff, hclock]

def starting : State := (State.init ⟨true, true, 10⟩ ⟨100000, 500⟩ {} none).startStateMachine

def goneTwice : List Transition :=
  [⟨.inactive, .active, 10⟩, ⟨.active, .inactive, 20⟩, ⟨.inactive, .active, 20⟩,
    ⟨.active, .inactive, 30⟩]

theorem stored_load_goneTwice :
    RoundTrip utc { starting with stateTransitions := goneTwice } starting ∧
      AcceptsOnlyHistories utc starting (stringify goneTwice) := by
  refine (stored_load_iff utc { starting with stateTransitions := goneTwice } starting
    (stringify goneTwice) rfl rfl (by decide) (by decide)).mpr ⟨?_, ?_⟩
  · show KeptTimesSafe 100000 goneTwice
    decide
  · intro entries l heq hread _ _
    cases heq
    obtain ⟨rfl, -⟩ := readEntries_toJson_iff.mp hread
    decide

def backwards : List Transition := [⟨.inactive, .active, 123⟩, ⟨.active, .inactive, 1⟩]

/-- Half a century later the first one is dropped, and the second one is not compared with it. -/
theorem not_stored_load_backwards :
    ¬ AcceptsOnlyHistories utc { starting with clock := ⟨1717236000, 500⟩ } (stringify backwards) := by
  have hread := readEntries_toJson_iff.mpr
    (⟨rfl, by decide⟩ : backwards = backwards ∧ ∀ e ∈ backwards, |e.wallTimeSecs| ≤ maxSafeInteger)
  intro h
  obtain ⟨entries, l, heq, hread', -, hsorted⟩ :=
    h (loadTransitions_succeeds_iff.mpr ⟨_, backwards, rfl, hread, accepted_iff.mpr (by decide)⟩)
  cases heq
  obtain ⟨rfl, -⟩ := readEntries_toJson_iff.mp hread'
  exact absurd hsorted (by decide)

end TimeLimitsManager
