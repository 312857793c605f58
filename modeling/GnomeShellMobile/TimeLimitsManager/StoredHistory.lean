import Mathlib.Algebra.Order.Ring.Int
import Mathlib.Algebra.Ring.Parity
import Mathlib.Data.List.Chain
import GnomeShellMobile.TimeLimitsManager.History

/-!
# TimeLimitsManager — storing the history

The pairwise filter drops the first entry of every cancelling pair and keeps the second. In a
well-formed history adjacent entries at one time always cancel, so of a run of entries at one
time only the last is left. A run of odd length is well replaced by its last entry, one of even
length is not: it should vanish as a whole.

* `WellFormed` — what a history is.
* `RunsOdd` — the histories for which the filter is harmless.
* `activeFrom` — the counting loop without its accumulator.
-/

namespace TimeLimitsManager

variable {S : Int}

/-- A history: times do not decrease and are not in the future, each transition starts from the
state the one before it led to, and changes it. -/
structure WellFormed (nowSecs : Int) (l : List Transition) : Prop where
  sorted : l.Pairwise fun a b => a.wallTimeSecs ≤ b.wallTimeSecs
  past : ∀ e ∈ l, e.wallTimeSecs ≤ nowSecs
  linked : l.IsChain fun a b => b.oldState = a.newState
  changes : ∀ e ∈ l, e.oldState ≠ e.newState

def entriesAt (l : List Transition) (t : Int) : Nat := l.countP fun e => e.wallTimeSecs = t

/-- Of the times inside the kept window every one occurs an odd number of times, except that the
oldest may occur an even number of times if it is not after the start of today. -/
def RunsOdd (nowSecs startOfTodaySecs : Int) (l : List Transition) : Prop :=
  ∀ e ∈ l, nowSecs - historyThresholdSeconds ≤ e.wallTimeSecs →
    Odd (entriesAt l e.wallTimeSecs) ∨
      (∀ x ∈ l, nowSecs - historyThresholdSeconds ≤ x.wallTimeSecs →
        e.wallTimeSecs ≤ x.wallTimeSecs) ∧ e.wallTimeSecs ≤ startOfTodaySecs

/-! ## Well-formed histories -/

variable {now : Int} {a b : Transition} {l r : List Transition}

section

variable (h : WellFormed now (a :: l))
include h

theorem WellFormed.tail : WellFormed now l where
  sorted := (List.pairwise_cons.mp h.sorted).2
  past e he := h.past e (List.mem_cons_of_mem _ he)
  linked := h.linked.tail
  changes e he := h.changes e (List.mem_cons_of_mem _ he)

theorem WellFormed.changes_head : a.oldState ≠ a.newState :=
  h.changes a List.mem_cons_self

theorem WellFormed.le_of_mem (hb : b ∈ l) :
    a.wallTimeSecs ≤ b.wallTimeSecs :=
  (List.pairwise_cons.mp h.sorted).1 b hb

end

section

variable (h : WellFormed now (a :: b :: r))
include h

theorem WellFormed.le_next : a.wallTimeSecs ≤ b.wallTimeSecs :=
  h.le_of_mem List.mem_cons_self

theorem WellFormed.old_next : b.oldState = a.newState :=
  (List.isChain_cons_cons.mp h.linked).1

theorem WellFormed.new_next : a.oldState = b.newState :=
  UserState.eq_of_ne h.changes_head (h.old_next ▸ h.tail.changes_head.symm)

theorem WellFormed.filterPairs_cons : filterPairs (a :: b :: r) =
      if a.wallTimeSecs = b.wallTimeSecs then filterPairs (b :: r)
      else a :: filterPairs (b :: r) := by
  simp [filterPairs, h.new_next]

end

/-! ## Trimming -/

theorem trimTransitions_eq_self (hpast : ∀ e ∈ l, e.wallTimeSecs ≤ now)
    (hl : ∀ e ∈ l, now - historyThresholdSeconds ≤ e.wallTimeSecs) : trimTransitions now l = l := by
  induction l with
  | nil => rfl
  | cons a r ih =>
      have ha : filterOldTransition a r.isEmpty now = true := by
        simp [filterOldTransition, hpast a, hl a]
      rw [trimTransitions, if_pos ha,
        ih (fun e he => hpast e (List.mem_cons_of_mem _ he))
          (fun e he => hl e (List.mem_cons_of_mem _ he))]

theorem WellFormed.trimTransitions_cons (h : WellFormed now (a :: r)) :
    (now - historyThresholdSeconds ≤ a.wallTimeSecs ∨ r = []) ∧
        trimTransitions now (a :: r) = a :: r ∨
      a.wallTimeSecs < now - historyThresholdSeconds ∧ r ≠ [] ∧
        trimTransitions now (a :: r) = trimTransitions now r := by
  have hpast := h.past a List.mem_cons_self
  by_cases ha : now - historyThresholdSeconds ≤ a.wallTimeSecs
  · refine .inl ⟨.inl ha, trimTransitions_eq_self h.past fun e he => ?_⟩
    rcases List.mem_cons.mp he with rfl | he
    · exact ha
    · exact ha.trans (h.le_of_mem he)
  · cases r with
    | nil => exact .inl ⟨.inr rfl, by simp [trimTransitions, filterOldTransition, hpast]⟩
    | cons b r =>
        exact .inr ⟨by omega, by simp, by simp [trimTransitions, filterOldTransition, ha]⟩

theorem WellFormed.trimTransitions (h : WellFormed now l) :
    WellFormed now (trimTransitions now l) := by
  induction l with
  | nil => exact h
  | cons a r ih =>
      rcases h.trimTransitions_cons with ⟨-, heq⟩ | ⟨-, -, heq⟩
      · rwa [heq]
      · rw [heq]
        exact ih h.tail

theorem WellFormed.endsActive_trimTransitions (h : WellFormed now l) :
    endsActive (TimeLimitsManager.trimTransitions now l) = endsActive l := by
  induction l with
  | nil => rfl
  | cons a r ih =>
      rcases h.trimTransitions_cons with ⟨-, heq⟩ | ⟨-, hr, heq⟩
      · rw [heq]
      · obtain ⟨b, r, rfl⟩ := List.exists_cons_of_ne_nil hr
        rw [heq, ih h.tail, endsActive, endsActive, List.getLast?_cons_cons]

theorem transitionsToday_of_lt (h : a.wallTimeSecs < S) :
    transitionsToday S (a :: l) = transitionsToday S l := by
  simp [transitionsToday, h]

theorem transitionsToday_of_le (h : S ≤ a.wallTimeSecs) : transitionsToday S (a :: l) = a :: l := by
  simp [transitionsToday, h]

theorem WellFormed.transitionsToday_trimTransitions (h : WellFormed now l)
    (hS : now - historyThresholdSeconds ≤ S) :
    transitionsToday S (TimeLimitsManager.trimTransitions now l) = transitionsToday S l := by
  induction l with
  | nil => rfl
  | cons a r ih =>
      rcases h.trimTransitions_cons with ⟨-, heq⟩ | ⟨ha, -, heq⟩
      · rw [heq]
      · rw [heq, ih h.tail, transitionsToday_of_lt (ha.trans_le hS)]

/-! ## Runs of entries at one time -/

def firstRun : List Transition → Nat
  | [] => 0
  | [_] => 1
  | a :: b :: r => if a.wallTimeSecs = b.wallTimeSecs then firstRun (b :: r) + 1 else 1

def TailOdd : List Transition → Prop
  | [] => True
  | [_] => True
  | a :: b :: r =>
      if a.wallTimeSecs = b.wallTimeSecs then TailOdd (b :: r)
      else Odd (firstRun (b :: r)) ∧ TailOdd (b :: r)

theorem entriesAt_cons (t : Int) :
    entriesAt (a :: l) t = entriesAt l t + if a.wallTimeSecs = t then 1 else 0 := by
  simp [entriesAt, List.countP_cons]

theorem WellFormed.entriesAt_head (h : WellFormed now (a :: l)) :
    entriesAt (a :: l) a.wallTimeSecs = firstRun (a :: l) := by
  induction l generalizing a with
  | nil => simp [entriesAt, firstRun]
  | cons b r ih =>
      rw [entriesAt_cons, if_pos rfl, firstRun]
      split
      · next hab => rw [hab, ih h.tail]
      · next hab =>
          have hlt : a.wallTimeSecs < b.wallTimeSecs := lt_of_le_of_ne h.le_next hab
          have hnone : entriesAt (b :: r) a.wallTimeSecs = 0 := by
            refine List.countP_eq_zero.mpr fun e he => ?_
            have hbe : b.wallTimeSecs ≤ e.wallTimeSecs := by
              rcases List.mem_cons.mp he with rfl | he
              · exact le_rfl
              · exact h.tail.le_of_mem he
            simp only [decide_eq_true_eq]
            omega
          rw [hnone]

theorem WellFormed.tailOdd_iff (h : WellFormed now (a :: l)) : TailOdd (a :: l) ↔
      ∀ e ∈ a :: l, e.wallTimeSecs ≠ a.wallTimeSecs → Odd (entriesAt (a :: l) e.wallTimeSecs) := by
  induction l generalizing a with
  | nil => simp [TailOdd]
  | cons b r ih =>
      have hskip {e : Transition} (he : e.wallTimeSecs ≠ a.wallTimeSecs) :
          entriesAt (a :: b :: r) e.wallTimeSecs = entriesAt (b :: r) e.wallTimeSecs := by
        rw [entriesAt_cons, if_neg (Ne.symm he), Nat.add_zero]
      rw [TailOdd]
      split
      · next hab =>
          rw [ih h.tail]
          constructor
          · intro hr e he hne
            rcases List.mem_cons.mp he with rfl | he
            · exact absurd rfl hne
            · rw [hskip hne]
              exact hr e he (hab ▸ hne)
          · intro hr e he hne
            rw [← hskip (hab ▸ hne)]
            exact hr e (List.mem_cons_of_mem _ he) (hab ▸ hne)
      · next hab =>
          have hlt : a.wallTimeSecs < b.wallTimeSecs := lt_of_le_of_ne h.le_next hab
          rw [ih h.tail, ← h.tail.entriesAt_head]
          constructor
          · rintro ⟨hb, hr⟩ e he hne
            rcases List.mem_cons.mp he with rfl | he
            · exact absurd rfl hne
            · rw [hskip hne]
              by_cases heb : e.wallTimeSecs = b.wallTimeSecs
              · rwa [heb]
              · exact hr e he heb
          · intro hr
            have hne {e : Transition} (he : e ∈ b :: r) : e.wallTimeSecs ≠ a.wallTimeSecs := by
              rcases List.mem_cons.mp he with rfl | he
              · exact hlt.ne'
              · exact (hlt.trans_le (h.tail.le_of_mem he)).ne'
            refine ⟨?_, fun e he _ => ?_⟩
            · rw [← hskip hlt.ne']
              exact hr b (by simp) hlt.ne'
            · rw [← hskip (hne he)]
              exact hr e (List.mem_cons_of_mem _ he) (hne he)

theorem runsOdd_cons_of_lt (ha : a.wallTimeSecs < now - historyThresholdSeconds) :
    RunsOdd now S (a :: l) ↔ RunsOdd now S l := by
  have hskip {e : Transition} (he : now - historyThresholdSeconds ≤ e.wallTimeSecs) :
      entriesAt (a :: l) e.wallTimeSecs = entriesAt l e.wallTimeSecs := by
    rw [entriesAt_cons, if_neg (ha.trans_le he).ne, Nat.add_zero]
  constructor
  · intro hr e he hkept
    rw [← hskip hkept]
    exact (hr e (List.mem_cons_of_mem _ he) hkept).imp_right fun hold =>
      ⟨fun x hx => hold.1 x (List.mem_cons_of_mem _ hx), hold.2⟩
  · intro hr e he hkept
    rw [hskip hkept]
    rcases List.mem_cons.mp he with rfl | he
    · exact absurd hkept ha.not_ge
    · refine (hr e he hkept).imp_right fun hold => ⟨fun x hx hxkept => ?_, hold.2⟩
      rcases List.mem_cons.mp hx with rfl | hx
      · exact absurd hxkept ha.not_ge
      · exact hold.1 x hx hxkept

theorem WellFormed.runsOdd_trimTransitions (h : WellFormed now l) :
    RunsOdd now S (TimeLimitsManager.trimTransitions now l) ↔ RunsOdd now S l := by
  induction l with
  | nil => rfl
  | cons a r ih =>
      rcases h.trimTransitions_cons with ⟨-, heq⟩ | ⟨ha, -, heq⟩
      · rw [heq]
      · rw [heq, ih h.tail, runsOdd_cons_of_lt ha]

theorem WellFormed.trimTransitions_head (h : WellFormed now l)
    (heq : TimeLimitsManager.trimTransitions now l = a :: r) :
    now - historyThresholdSeconds ≤ a.wallTimeSecs ∨ r = [] := by
  induction l with
  | nil => cases heq
  | cons b l ih =>
      rcases h.trimTransitions_cons with ⟨hb, hself⟩ | ⟨-, -, hrest⟩
      · rw [hself] at heq
        cases heq
        exact hb
      · exact ih h.tail (hrest ▸ heq)

theorem WellFormed.runsOdd_iff (h : WellFormed now (a :: l))
    (hkept : now - historyThresholdSeconds ≤ a.wallTimeSecs ∨ l = []) : RunsOdd now S (a :: l) ↔
      TailOdd (a :: l) ∧ (Odd (firstRun (a :: l)) ∨ a.wallTimeSecs ≤ S) := by
  rcases hkept with hkept | rfl
  · have hle {x : Transition} (hx : x ∈ a :: l) : a.wallTimeSecs ≤ x.wallTimeSecs := by
      rcases List.mem_cons.mp hx with rfl | hx
      · exact le_rfl
      · exact h.le_of_mem hx
    rw [h.tailOdd_iff, ← h.entriesAt_head]
    constructor
    · intro hr
      refine ⟨fun e he hne => ?_, (hr a List.mem_cons_self hkept).imp_right And.right⟩
      refine (hr e he (hkept.trans (hle he))).resolve_right fun hold => hne ?_
      exact le_antisymm (hold.1 a List.mem_cons_self hkept) (hle he)
    · rintro ⟨htail, hhead⟩ e he -
      by_cases hea : e.wallTimeSecs = a.wallTimeSecs
      · rw [hea]
        exact hhead.imp_right fun hS => ⟨fun x hx _ => hle hx, hS⟩
      · exact .inl (htail e he hea)
  · refine iff_of_true (fun e he _ => .inl ?_) ⟨trivial, .inl odd_one⟩
    rw [List.mem_singleton.mp he, h.entriesAt_head]
    exact odd_one

/-! ## The pairwise filter -/

theorem filterPairs_sublist (l : List Transition) : (filterPairs l).Sublist l := by
  induction l using filterPairs.induct with
  | case1 => exact List.Sublist.refl _
  | case2 e => exact List.Sublist.refl _
  | case3 a b r hc ih =>
      rw [filterPairs, if_pos hc]
      exact ih.cons a
  | case4 a b r hc ih =>
      rw [filterPairs, if_neg hc]
      exact ih.cons_cons a

theorem filterPairs_ne_nil (a : Transition) (l : List Transition) : filterPairs (a :: l) ≠ [] := by
  induction l generalizing a with
  | nil => simp [filterPairs]
  | cons b r ih =>
      rw [filterPairs]
      split
      · exact ih b
      · exact List.cons_ne_nil _ _

theorem filterPairs_getLast? (l : List Transition) : (filterPairs l).getLast? = l.getLast? := by
  induction l using filterPairs.induct with
  | case1 => rfl
  | case2 e => rfl
  | case3 a b r hc ih =>
      rw [filterPairs, if_pos hc, ih, List.getLast?_cons_cons]
  | case4 a b r hc ih =>
      obtain ⟨x, xs, hf⟩ := List.exists_cons_of_ne_nil (filterPairs_ne_nil b r)
      rw [filterPairs, if_neg hc, List.getLast?_cons_cons, ← ih, hf, List.getLast?_cons_cons]

theorem endsActive_filterPairs (l : List Transition) : endsActive (filterPairs l) = endsActive l := by
  rw [endsActive, endsActive, filterPairs_getLast?]

theorem transitionsToday_filterPairs (S : Int) (l : List Transition) :
    transitionsToday S (filterPairs l) = filterPairs (transitionsToday S l) := by
  induction l using filterPairs.induct with
  | case1 => rfl
  | case2 e =>
      rcases lt_or_ge e.wallTimeSecs S with he | he
      · rw [filterPairs, transitionsToday_of_lt he]
        rfl
      · rw [filterPairs, transitionsToday_of_le he]
        rfl
  | case3 a b r hc ih =>
      rw [filterPairs, if_pos hc, ih]
      rcases lt_or_ge a.wallTimeSecs S with ha | ha
      · rw [transitionsToday_of_lt ha]
      · rw [transitionsToday_of_le ha, transitionsToday_of_le (hc.1 ▸ ha), filterPairs, if_pos hc]
  | case4 a b r hc ih =>
      rcases lt_or_ge a.wallTimeSecs S with ha | ha
      · rw [filterPairs, if_neg hc, transitionsToday_of_lt ha, transitionsToday_of_lt ha, ih]
      · rw [transitionsToday_of_le ha, filterPairs, if_neg hc, transitionsToday_of_le ha]

section

variable (h : WellFormed now (a :: l))
include h

theorem WellFormed.filterPairs_head :
    ∃ e r, filterPairs (a :: l) = e :: r ∧ (e.oldState = a.oldState ↔ Odd (firstRun (a :: l))) := by
  induction l generalizing a with
  | nil => exact ⟨a, [], rfl, by simp [firstRun]⟩
  | cons b r ih =>
      rw [h.filterPairs_cons, firstRun]
      split
      · obtain ⟨e, r', heq, hodd⟩ := ih h.tail
        refine ⟨e, r', heq, ?_⟩
        have hab : a.oldState ≠ b.oldState := h.old_next ▸ h.changes_head
        rw [Nat.odd_add_one, ← hodd]
        constructor
        · exact fun he hb => hab (he ▸ hb)
        · exact fun he => UserState.eq_of_ne he hab
      · exact ⟨a, filterPairs (b :: r), rfl, by simp⟩

theorem WellFormed.filterPairs_linked :
    (filterPairs (a :: l)).IsChain (fun a b => b.oldState = a.newState) ↔ TailOdd (a :: l) := by
  induction l generalizing a with
  | nil => simp [filterPairs, TailOdd]
  | cons b r ih =>
      rw [h.filterPairs_cons, TailOdd]
      split
      · exact ih h.tail
      · obtain ⟨e, r', heq, hodd⟩ := h.tail.filterPairs_head
        rw [← ih h.tail, ← hodd, heq, List.isChain_cons_cons, h.old_next]

theorem WellFormed.filterPairs_iff :
    WellFormed now (filterPairs (a :: l)) ↔ TailOdd (a :: l) := by
  rw [← h.filterPairs_linked]
  refine ⟨WellFormed.linked, fun hlinked => ?_⟩
  have hsub := filterPairs_sublist (a :: l)
  exact {
    sorted := h.sorted.sublist hsub
    past := fun e he => h.past e (hsub.subset he)
    linked := hlinked
    changes := fun e he => h.changes e (hsub.subset he) }

end

/-! ## Counting without an accumulator -/

/-- What the counting loop adds over `l` when the user has been active since `start`; `ends` tells
that the user is active at the end. -/
def activeFrom (nowSecs : Int) (ends : Bool) (start : Int) : List Transition → Int
  | [] => if ends then max (nowSecs - start) 0 else 0
  | e :: r =>
      if e.newState = .active then activeFrom nowSecs ends e.wallTimeSecs r
      else if e.oldState = .active then
        max (e.wallTimeSecs - start) 0 + activeFrom nowSecs ends start r
      else activeFrom nowSecs ends start r

theorem foldl_countTransition (ends : Bool) (l : List Transition) (acc : Int × Int) :
    (let (activeTime, activeStart) := l.foldl countTransition acc
      if ends then activeTime + max (now - activeStart) 0 else activeTime) =
      acc.1 + activeFrom now ends acc.2 l := by
  induction l generalizing acc with
  | nil => cases ends <;> simp [activeFrom]
  | cons e r ih =>
      obtain ⟨activeTime, activeStart⟩ := acc
      rw [List.foldl_cons, ih, activeFrom, countTransition]
      split
      · rfl
      · split
        · exact add_assoc _ _ _
        · rfl

theorem calculateActiveTimeTodaySecs_eq (now S : Int) (l : List Transition) :
    calculateActiveTimeTodaySecs now S l =
      activeFrom now (endsActive l) S (transitionsToday S l) :=
  (foldl_countTransition (endsActive l) (transitionsToday S l) (0, S)).trans (Int.zero_add _)

theorem endsActive_cons_cons : endsActive (a :: b :: r) = endsActive (b :: r) := by
  rw [endsActive, endsActive, List.getLast?_cons_cons]

theorem WellFormed.activeFrom_inactive (h : WellFormed now (a :: l)) (ha : a.newState ≠ .active)
    (start start' : Int) :
    activeFrom now (endsActive (a :: l)) start l = activeFrom now (endsActive (a :: l)) start' l := by
  cases l with
  | nil => simp [activeFrom, endsActive, ha]
  | cons b r =>
      have hb : b.newState = .active :=
        UserState.eq_of_ne (h.new_next ▸ h.changes_head) (Ne.symm ha)
      simp [activeFrom, hb]

theorem WellFormed.activeFrom_pair (h : WellFormed now (a :: b :: r))
    (hab : a.wallTimeSecs = b.wallTimeSecs) {start : Int} (hstart : start ≤ a.wallTimeSecs) :
    activeFrom now (endsActive (b :: r)) start (a :: b :: r) =
      activeFrom now (endsActive (b :: r)) start (b :: r) +
        if a.newState = .active then start - a.wallTimeSecs else a.wallTimeSecs - start := by
  by_cases ha : a.newState = .active
  · have hb : b.newState ≠ .active := h.new_next ▸ ha ▸ h.changes_head
    have hr := h.tail.activeFrom_inactive hb start a.wallTimeSecs
    have hba : b.oldState = .active := h.old_next.trans ha
    simp only [activeFrom, if_pos ha, if_neg hb, if_pos hba, hr]
    omega
  · have hold : a.oldState = .active := UserState.eq_of_ne h.changes_head (Ne.symm ha)
    rw [activeFrom, if_neg ha, if_neg ha, if_pos hold]
    omega

theorem WellFormed.activeFrom_filterPairs (h : WellFormed now (a :: l)) (htail : TailOdd (a :: l))
    {start : Int} (hstart : start ≤ a.wallTimeSecs) :
    activeFrom now (endsActive (a :: l)) start (filterPairs (a :: l)) =
      activeFrom now (endsActive (a :: l)) start (a :: l) +
        if Odd (firstRun (a :: l)) then 0
        else if a.newState = .active then a.wallTimeSecs - start
        else start - a.wallTimeSecs := by
  induction l generalizing a start with
  | nil => simp [filterPairs, firstRun]
  | cons b r ih =>
      rw [h.filterPairs_cons, firstRun, endsActive_cons_cons]
      rw [TailOdd] at htail
      by_cases hab : a.wallTimeSecs = b.wallTimeSecs
      · rw [if_pos hab] at htail ⊢
        rw [if_pos hab, ih h.tail htail (hab ▸ hstart), h.activeFrom_pair hab hstart]
        have hb : b.newState = .active ↔ a.newState ≠ .active :=
          h.new_next ▸ UserState.eq_active_iff_of_ne h.changes_head
        simp only [Nat.odd_add_one, hb, hab]
        by_cases hodd : Odd (firstRun (b :: r)) <;> by_cases ha : a.newState = .active <;>
          simp only [hodd, ha, if_true, if_false, not_true, not_false_iff, ne_eq] <;> omega
      · rw [if_neg hab] at htail ⊢
        rw [if_neg hab, if_pos odd_one, Int.add_zero]
        have hrest {start : Int} (hs : start ≤ b.wallTimeSecs) :
            activeFrom now (endsActive (b :: r)) start (filterPairs (b :: r)) =
              activeFrom now (endsActive (b :: r)) start (b :: r) := by
          rw [ih h.tail htail.2 hs, if_pos htail.1, Int.add_zero]
        rw [activeFrom, activeFrom, hrest h.le_next, hrest (hstart.trans h.le_next)]

/-! ## Storing a history -/

theorem WellFormed.transitionsToday (S : Int) (h : WellFormed now l) :
    WellFormed now (transitionsToday S l) := by
  induction l with
  | nil => exact h
  | cons a r ih =>
      rcases lt_or_ge a.wallTimeSecs S with ha | ha
      · rw [transitionsToday_of_lt ha]
        exact ih h.tail
      · rwa [transitionsToday_of_le ha]

theorem TailOdd.tail (h : TailOdd (a :: l)) : TailOdd l := by
  cases l with
  | nil => trivial
  | cons b r =>
      rw [TailOdd] at h
      split at h
      · exact h
      · exact h.2

theorem TailOdd.transitionsToday (h : TailOdd (a :: l)) (ha : a.wallTimeSecs < S) :
    TimeLimitsManager.transitionsToday S (a :: l) = [] ∨
      ∃ b r, TimeLimitsManager.transitionsToday S (a :: l) = b :: r ∧ S ≤ b.wallTimeSecs ∧
        Odd (firstRun (b :: r)) ∧ TailOdd (b :: r) := by
  induction l generalizing a with
  | nil => exact .inl (transitionsToday_of_lt ha)
  | cons b r ih =>
      rw [transitionsToday_of_lt ha]
      rcases lt_or_ge b.wallTimeSecs S with hb | hb
      · exact ih h.tail hb
      · have hab : a.wallTimeSecs ≠ b.wallTimeSecs := (ha.trans_le hb).ne
        rw [TailOdd, if_neg hab] at h
        exact .inr ⟨b, r, transitionsToday_of_le hb, hb, h⟩

theorem endsActive_transitionsToday (h : transitionsToday S l = b :: r) :
    endsActive (b :: r) = endsActive l := by
  induction l with
  | nil => simp [transitionsToday] at h
  | cons a l ih =>
      rcases lt_or_ge a.wallTimeSecs S with ha | ha
      · rw [transitionsToday_of_lt ha] at h
        rw [ih h]
        cases l with
        | nil => simp [transitionsToday] at h
        | cons c l => exact endsActive_cons_cons.symm
      · rw [transitionsToday_of_le ha] at h
        rw [h]

theorem WellFormed.calculateActiveTimeTodaySecs_filterPairs
    (h : WellFormed now (a :: l)) (htail : TailOdd (a :: l)) :
    calculateActiveTimeTodaySecs now S (filterPairs (a :: l)) =
        calculateActiveTimeTodaySecs now S (a :: l) ↔
      Odd (firstRun (a :: l)) ∨ a.wallTimeSecs ≤ S := by
  rw [calculateActiveTimeTodaySecs_eq, calculateActiveTimeTodaySecs_eq, endsActive_filterPairs,
    transitionsToday_filterPairs]
  rcases lt_or_ge a.wallTimeSecs S with ha | ha
  · refine iff_of_true ?_ (.inr ha.le)
    rcases htail.transitionsToday ha with hnil | ⟨b, r, heq, hb, hodd, hr⟩
    · rw [hnil]
      rfl
    · have hwf : WellFormed now (b :: r) := heq ▸ h.transitionsToday S
      rw [heq, ← endsActive_transitionsToday heq, hwf.activeFrom_filterPairs hr hb, if_pos hodd,
        Int.add_zero]
  · rw [transitionsToday_of_le ha, h.activeFrom_filterPairs htail ha]
    by_cases hodd : Odd (firstRun (a :: l))
    · simp [hodd]
    · rw [if_neg hodd]
      constructor
      · intro heq
        right
        split at heq <;> omega
      · rintro (hodd' | hle)
        · exact absurd hodd' hodd
        · split <;> omega

/-- Storing a history leaves a history with the same active time today exactly if every time in
the kept window occurs an odd number of times, save the oldest if it does not lie in today. -/
theorem storeTransitions_iff_runsOdd {S : Int} (h : WellFormed now l)
    (hS : now - historyThresholdSeconds ≤ S) : (WellFormed now (storeTransitions now l) ∧
        calculateActiveTimeTodaySecs now S (storeTransitions now l) =
          calculateActiveTimeTodaySecs now S l) ↔
      RunsOdd now S l := by
  have htrim := h.trimTransitions
  have hactive : calculateActiveTimeTodaySecs now S l =
      calculateActiveTimeTodaySecs now S (trimTransitions now l) := by
    rw [calculateActiveTimeTodaySecs_eq, calculateActiveTimeTodaySecs_eq,
      h.endsActive_trimTransitions, h.transitionsToday_trimTransitions hS]
  rw [hactive, storeTransitions, ← h.runsOdd_trimTransitions]
  cases hk : trimTransitions now l with
  | nil =>
      rw [hk] at htrim
      exact iff_of_true ⟨htrim, rfl⟩ (by simp [RunsOdd])
  | cons a r =>
      rw [hk] at htrim
      rw [htrim.filterPairs_iff, htrim.runsOdd_iff (h.trimTransitions_head hk)]
      exact and_congr_right htrim.calculateActiveTimeTodaySecs_filterPairs

/-- Becoming active twice at one time, with becoming inactive in between, is stored well. -/
theorem storeTransitions_toggledTwice : WellFormed 10 (storeTransitions 10
        [⟨.inactive, .active, 1⟩, ⟨.active, .inactive, 1⟩, ⟨.inactive, .active, 1⟩]) ∧
      calculateActiveTimeTodaySecs 10 0 (storeTransitions 10
          [⟨.inactive, .active, 1⟩, ⟨.active, .inactive, 1⟩, ⟨.inactive, .active, 1⟩]) =
        calculateActiveTimeTodaySecs 10 0
          [⟨.inactive, .active, 1⟩, ⟨.active, .inactive, 1⟩, ⟨.inactive, .active, 1⟩] := by
  refine (storeTransitions_iff_runsOdd ?_ (by decide)).mpr ?_
  · exact ⟨by decide, by decide, by decide, by decide⟩
  · intro e he _
    left
    revert e
    decide

/-- Being inactive for less than a second: the history is stored without the entry that ended
the time before, and less active time is counted. -/
theorem not_storeTransitions_awayForAMoment :
    ¬ ∀ (now S : Int) (l : List Transition), WellFormed now l →
      S ≤ now → now - historyThresholdSeconds ≤ S →
        WellFormed now (storeTransitions now l) ∧
          calculateActiveTimeTodaySecs now S (storeTransitions now l) =
            calculateActiveTimeTodaySecs now S l := by
  intro h
  have hwf : WellFormed 10
      [⟨.inactive, .active, 1⟩, ⟨.active, .inactive, 5⟩, ⟨.inactive, .active, 5⟩] :=
    ⟨by decide, by decide, by decide, by decide⟩
  have heq := (h 10 0 _ hwf (by decide) (by decide)).2
  revert heq
  decide

end TimeLimitsManager
