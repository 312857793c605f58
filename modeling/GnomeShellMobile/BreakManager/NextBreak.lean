import Mathlib.Data.List.Nodup
import GnomeShellMobile.BreakManager.Facts

/-!
# BreakManager — the next break

`getNextBreakDue` should answer a type and that type's own due time: the longest of the break types
that are due, or the earliest of all if none is due. Its loop gives the type of the first of the
longest ones, and the due time of the one that is listed last.

* **`Looped`**: what the variables of the loop are, for the break types it has seen.
* **`answers_iff`**: the answer is right if and only if these two fall due at the same time.
-/

namespace BreakManager

/-! ## The first of the greatest -/

section FirstMax

variable {α : Type} {score : α → ℕ} {xs : List α} {a b : α}

/-- The elements before `a` have a smaller score, those after it none that is greater. -/
def FirstMax (score : α → ℕ) (xs : List α) (a : α) : Prop :=
  ∃ before behind, xs = before ++ a :: behind ∧ (∀ c ∈ before, score c < score a) ∧
    ∀ c ∈ behind, score c ≤ score a

theorem FirstMax.mem (h : FirstMax score xs a) : a ∈ xs := by
  obtain ⟨before, behind, rfl, -, -⟩ := h
  simp

theorem FirstMax.le (h : FirstMax score xs a) (hb : b ∈ xs) : score b ≤ score a := by
  obtain ⟨before, behind, rfl, hbefore, hbehind⟩ := h
  rcases List.mem_append.mp hb with hb | hb
  · exact (hbefore b hb).le
  · rcases List.mem_cons.mp hb with rfl | hb
    · exact le_rfl
    · exact hbehind b hb

theorem FirstMax.unique (ha : FirstMax score xs a) (hb : FirstMax score xs b) : a = b := by
  obtain ⟨before, behind, heq, hbefore, hbehind⟩ := ha
  obtain ⟨before', behind', heq', hbefore', hbehind'⟩ := hb
  obtain ⟨rest, h⟩ | ⟨rest, h⟩ : (∃ rest, before ++ a :: rest = before' ∨ before = before' ∧ a = b) ∨
      ∃ rest, before' ++ b :: rest = before := by
    rcases List.append_eq_append_iff.mp (heq.symm.trans heq') with ⟨m, hm, hm'⟩ | ⟨m, hm, hm'⟩
    · cases m with
      | nil =>
        rw [List.nil_append] at hm'
        exact .inl ⟨[], .inr ⟨by simpa using hm.symm, (List.cons.inj hm').1⟩⟩
      | cons d m =>
        obtain ⟨rfl, -⟩ := List.cons.inj hm'
        exact .inl ⟨m, .inl hm.symm⟩
    · cases m with
      | nil =>
        rw [List.nil_append] at hm'
        exact .inl ⟨[], .inr ⟨by simpa using hm, (List.cons.inj hm').1.symm⟩⟩
      | cons d m =>
        obtain ⟨rfl, -⟩ := List.cons.inj hm'
        exact .inr ⟨m, hm.symm⟩
  · rcases h with rfl | ⟨-, rfl⟩
    · have hlt := hbefore' a (by simp)
      have hle : score b ≤ score a := FirstMax.le ⟨before, behind, heq, hbefore, hbehind⟩ (by simp [heq'])
      omega
    · rfl
  · subst h
    have hlt := hbefore b (by simp)
    have hle : score a ≤ score b :=
      FirstMax.le ⟨before', behind', heq', hbefore', hbehind'⟩ (by simp [heq])
    omega

theorem FirstMax.concat (h : FirstMax score xs a) (hle : score b ≤ score a) :
    FirstMax score (xs ++ [b]) a := by
  obtain ⟨before, behind, rfl, hbefore, hbehind⟩ := h
  refine ⟨before, behind ++ [b], by simp, hbefore, fun c hc => ?_⟩
  rcases List.mem_append.mp hc with hc | hc
  · exact hbehind c hc
  · rw [List.mem_singleton.mp hc]
    exact hle

theorem FirstMax.of_lt (h : ∀ c ∈ xs, score c < score b) : FirstMax score (xs ++ [b]) b :=
  ⟨xs, [], rfl, h, nofun⟩

end FirstMax

namespace State

variable {s : State} {now : ℚ}

/-! ## The answer -/

structure Answers (s : State) (now : ℚ) (answer : Option BreakType × ℚ) : Prop where
  due : s.Due now → ∃ b ∈ s.breaks, s.wouldBeDueAt b ≤ now ∧
    (∀ c ∈ s.breaks, s.wouldBeDueAt c ≤ now → s.duration c.type ≤ s.duration b.type) ∧
      answer = (some b.type, s.wouldBeDueAt b)
  later : s.breaks ≠ [] → ¬ s.Due now → ∃ b ∈ s.breaks,
    (∀ c ∈ s.breaks, s.wouldBeDueAt b ≤ s.wouldBeDueAt c) ∧
      answer = (some b.type, s.wouldBeDueAt b)
  none : answer = (none, 0) ↔ s.breaks = []

def dueAmong (s : State) (now : ℚ) (bs : List Break) : List Break :=
  bs.filter fun b => s.wouldBeDueAt b ≤ now

theorem mem_dueAmong {bs : List Break} {b : Break} :
    b ∈ s.dueAmong now bs ↔ b ∈ bs ∧ s.wouldBeDueAt b ≤ now := by
  simp [dueAmong]

def LastAgrees (s : State) (now : ℚ) : Prop :=
  ∀ longest, FirstMax (fun b => s.duration b.type) (s.dueAmong now s.breaks) longest →
    ∀ last ∈ (s.dueAmong now s.breaks).getLast?, 0 < s.duration longest.type →
      s.wouldBeDueAt longest = s.wouldBeDueAt last

def Distinct (s : State) : Prop := (s.breaks.map Break.type).Nodup

/-! ## The loop -/

/-- The variables of the loop after the break types `seen`: nothing has been seen, or nothing that
is due, or only break types of no length are due, or some with a length. -/
inductive Looped (s : State) (now : ℚ) (seen : List Break) : NextDue → Prop
  | start (hseen : seen = []) : Looped s now seen ⟨0, none, 0⟩
  | early {b : Break} (hnone : s.dueAmong now seen = []) (hb : b ∈ seen)
      (hmin : ∀ c ∈ seen, s.wouldBeDueAt b ≤ s.wouldBeDueAt c) :
      Looped s now seen ⟨0, some b.type, s.wouldBeDueAt b⟩
  | zero {last : Break} (hlast : (s.dueAmong now seen).getLast? = some last)
      (hzero : ∀ c ∈ s.dueAmong now seen, s.duration c.type = 0) :
      Looped s now seen ⟨0, some last.type, s.wouldBeDueAt last⟩
  | long {longest last : Break} (hlast : (s.dueAmong now seen).getLast? = some last)
      (hmax : FirstMax (fun b => s.duration b.type) (s.dueAmong now seen) longest)
      (hpos : 0 < s.duration longest.type) :
      Looped s now seen ⟨s.duration longest.type, some longest.type, s.wouldBeDueAt last⟩

theorem dueAmong_concat (seen : List Break) (b : Break) : s.dueAmong now (seen ++ [b]) =
      s.dueAmong now seen ++ if s.wouldBeDueAt b ≤ now then [b] else [] := by
  rw [dueAmong, List.filter_append]
  by_cases hb : s.wouldBeDueAt b ≤ now
  · simp [dueAmong, hb]
  · simp [dueAmong, hb]

theorem Looped.due {seen : List Break} {acc : NextDue} (h : s.Looped now seen acc) {b : Break}
    (hb : s.wouldBeDueAt b ≤ now) : s.Looped now (seen ++ [b]) (s.nextDueBody now acc b) := by
  have hdues : s.dueAmong now (seen ++ [b]) = s.dueAmong now seen ++ [b] := by
    rw [dueAmong_concat, if_pos hb]
  have hlast : (s.dueAmong now (seen ++ [b])).getLast? = some b := by simp [hdues]
  -- with no length seen before, the new one is the longest whatever its length
  have hfirst : (∀ c ∈ s.dueAmong now seen, s.duration c.type = 0) →
      s.Looped now (seen ++ [b]) ⟨s.duration b.type, some b.type, s.wouldBeDueAt b⟩ := by
    intro hzero
    rcases Nat.eq_zero_or_pos (s.duration b.type) with h0 | hpos
    · rw [h0]
      refine .zero hlast fun c hc => ?_
      rw [hdues] at hc
      rcases List.mem_append.mp hc with hc | hc
      · exact hzero c hc
      · rw [List.mem_singleton.mp hc, h0]
    · refine .long hlast ?_ hpos
      rw [hdues]
      exact .of_lt fun c hc => by rw [hzero c hc]; exact hpos
  rw [nextDueBody, if_pos hb]
  cases h with
  | start hseen =>
    subst hseen
    exact hfirst nofun
  | early hnone => exact hfirst (by simp [hnone])
  | zero _ hzero => exact hfirst hzero
  | @long longest _ _ hmax hpos =>
    dsimp only
    by_cases hlonger : s.duration longest.type < s.duration b.type
    · rw [if_pos (.inr hlonger)]
      refine .long hlast ?_ (by omega)
      rw [hdues]
      exact .of_lt fun c hc => (hmax.le hc).trans_lt hlonger
    · rw [if_neg (by omega)]
      refine .long hlast ?_ hpos
      rw [hdues]
      exact hmax.concat (Nat.not_lt.mp hlonger)

theorem Looped.notDue {seen : List Break} {acc : NextDue} (h : s.Looped now seen acc) {b : Break}
    (hseen : ∀ c ∈ seen, 0 < s.wouldBeDueAt c) (hb : ¬ s.wouldBeDueAt b ≤ now) :
    s.Looped now (seen ++ [b]) (s.nextDueBody now acc b) := by
  have hdues : s.dueAmong now (seen ++ [b]) = s.dueAmong now seen := by
    rw [dueAmong_concat, if_neg hb, List.append_nil]
  have hkeep : ∀ last, (s.dueAmong now seen).getLast? = some last →
      ¬ (s.wouldBeDueAt last = 0 ∨ s.wouldBeDueAt b < s.wouldBeDueAt last) := by
    intro last hlast
    obtain ⟨hmem, hdue⟩ := mem_dueAmong.mp (List.mem_of_getLast? hlast)
    have hpos := hseen last hmem
    rintro (h0 | hlt)
    · exact hpos.ne' h0
    · exact hb (hlt.le.trans hdue)
  rw [nextDueBody, if_neg hb]
  cases h with
  | start hnil =>
    subst hnil
    rw [if_pos (.inl rfl)]
    exact .early (by rw [hdues]; rfl) (by simp) (by simp)
  | @early e hnone he hmin =>
    dsimp only
    split
    · next hset =>
      have hlt : s.wouldBeDueAt b < s.wouldBeDueAt e := hset.resolve_left (hseen e he).ne'
      refine .early (by rw [hdues]; exact hnone) (by simp) fun c hc => ?_
      rcases List.mem_append.mp hc with hc | hc
      · exact hlt.le.trans (hmin c hc)
      · rw [List.mem_singleton.mp hc]
    · next hset =>
      refine .early (by rw [hdues]; exact hnone) (by simp [he]) fun c hc => ?_
      rcases List.mem_append.mp hc with hc | hc
      · exact hmin c hc
      · rw [List.mem_singleton.mp hc]
        exact not_lt.mp fun hlt => hset (.inr hlt)
  | @zero last hlast hzero =>
    dsimp only
    rw [if_neg (hkeep last hlast)]
    exact .zero (by rw [hdues]; exact hlast) (by rw [hdues]; exact hzero)
  | @long longest last hlast hmax hpos =>
    dsimp only
    rw [if_neg (hkeep last hlast)]
    exact .long (by rw [hdues]; exact hlast) (by rw [hdues]; exact hmax) hpos

/-- The whole loop. Induction on the break types that are left. -/
theorem Looped.foldl {seen : List Break} {acc : NextDue} (h : s.Looped now seen acc)
    (rest : List Break) (hpos : ∀ c ∈ seen ++ rest, 0 < s.wouldBeDueAt c) :
    s.Looped now (seen ++ rest) (rest.foldl (s.nextDueBody now) acc) := by
  induction rest generalizing seen acc with
  | nil => simpa using h
  | cons b rest ih =>
    have happend : seen ++ b :: rest = (seen ++ [b]) ++ rest := by simp
    have hbody : s.Looped now (seen ++ [b]) (s.nextDueBody now acc b) := by
      by_cases hb : s.wouldBeDueAt b ≤ now
      · exact h.due hb
      · exact h.notDue (fun c hc => hpos c (by simp [hc])) hb
    rw [happend] at hpos ⊢
    exact ih hbody hpos

/-! ## When the answer is right -/

theorem Answers.of_early {b : Break} (hnone : s.dueAmong now s.breaks = []) (hb : b ∈ s.breaks)
    (hmin : ∀ c ∈ s.breaks, s.wouldBeDueAt b ≤ s.wouldBeDueAt c) :
    s.Answers now (some b.type, s.wouldBeDueAt b) where
  due := by
    rintro ⟨c, hc, hdue⟩
    have hmem : c ∈ s.dueAmong now s.breaks := mem_dueAmong.mpr ⟨hc, hdue⟩
    rw [hnone] at hmem
    exact absurd hmem List.not_mem_nil
  later _ _ := ⟨b, hb, hmin, rfl⟩
  none := ⟨nofun, fun hnil => absurd hb (by simp [hnil])⟩

theorem Answers.of_longest {b : Break} (hb : b ∈ s.dueAmong now s.breaks)
    (hmax : ∀ c ∈ s.dueAmong now s.breaks, s.duration c.type ≤ s.duration b.type) {t : ℚ}
    (ht : s.wouldBeDueAt b = t) : s.Answers now (some b.type, t) := by
  obtain ⟨hmem, hdue⟩ := mem_dueAmong.mp hb
  refine ⟨fun _ => ⟨b, hmem, hdue, fun c hc hcd => hmax c (mem_dueAmong.mpr ⟨hc, hcd⟩), by rw [ht]⟩,
    fun _ hnot => absurd ⟨b, hmem, hdue⟩ hnot, nofun, fun hnil => ?_⟩
  rw [hnil] at hmem
  exact absurd hmem List.not_mem_nil

/-- **The next break.** `getNextBreakDue` answers right if and only if the first of the longest break
types that are due falls due when the last one does, or takes no time. A type is enabled once. -/
theorem answers_iff (hpos : s.Positive) (hdistinct : s.Distinct) :
    s.Answers now (s.getNextBreakDue now) ↔ s.LastAgrees now := by
  have hloop : s.Looped now s.breaks (s.breaks.foldl (s.nextDueBody now) ⟨0, none, 0⟩) :=
    (Looped.start rfl).foldl s.breaks fun c hc => hpos.wouldBeDueAt hc
  rw [getNextBreakDue]
  generalize s.breaks.foldl (s.nextDueBody now) ⟨0, none, 0⟩ = acc at hloop
  cases hloop with
  | start hnil =>
    refine ⟨fun _ longest hlongest => ?_, fun _ => ⟨?_, fun hne => absurd hnil hne, by simp [hnil]⟩⟩
    · have hmem := hlongest.mem
      simp [dueAmong, hnil] at hmem
    · rintro ⟨b, hb, -⟩
      simp [hnil] at hb
  | early hnone hb hmin =>
    refine ⟨fun _ longest hlongest => ?_, fun _ => .of_early hnone hb hmin⟩
    have hmem := hlongest.mem
    simp [hnone] at hmem
  | @zero last hlast hzero =>
    refine ⟨fun _ longest hlongest _ _ hlength => ?_, fun _ => ?_⟩
    · rw [hzero longest hlongest.mem] at hlength
      exact absurd hlength (Nat.lt_irrefl 0)
    · refine .of_longest (List.mem_of_getLast? hlast) (fun c hc => ?_) rfl
      rw [hzero c hc]
      exact Nat.zero_le _
  | @long longest last hlast hmax hlength =>
    constructor
    · intro hanswers longest' hlongest' last' hlast' _
      rw [hlongest'.unique hmax]
      obtain rfl : last = last' := Option.some.inj (hlast.symm.trans hlast')
      obtain ⟨hmem, hdue⟩ := mem_dueAmong.mp hmax.mem
      obtain ⟨b, hb, -, -, heq⟩ := hanswers.due ⟨longest, hmem, hdue⟩
      -- the type of the answer is that of the longest, and no other break has it
      have htype : longest.type = b.type := Option.some.inj (Prod.ext_iff.mp heq).1
      rw [List.inj_on_of_nodup_map hdistinct hmem hb htype]
      exact (Prod.ext_iff.mp heq).2.symm
    · intro hagrees
      exact .of_longest hmax.mem (fun c hc => hmax.le hc) (hagrees longest hmax last hlast hlength)

/-! ## A type is enabled once -/

theorem types_map {f : Break → Break} (hf : ∀ b, (f b).type = b.type) (bs : List Break) :
    (bs.map f).map Break.type = bs.map Break.type := by
  rw [List.map_map]
  exact List.map_congr_left fun b _ => hf b

theorem breaks_announceBreak (hpos : s.Positive) (now : ℚ) :
    (s.announceBreak now).breaks = s.breaks := by
  by_cases hdue : s.Due now
  · by_cases hst : s.state = .active
    · obtain ⟨t, -, hup⟩ := announceBreak_of_due hpos hdue hst
      exact hup.breaks
    · rw [announceBreak_of_due_of_ne hpos hdue hst]
  · exact (announceBreak_of_not_due hpos hdue).breaks

end State

open State

def bothEnabled : State :=
  { State.new ⟨["eyesight", "movement"], fun
      | .eyesight => ⟨20, 1200, 20⟩
      | .movement => ⟨300, 1800, 300⟩⟩ with
    breaks := [⟨.movement, 100⟩, ⟨.eyesight, 750⟩] }

theorem positive_bothEnabled : bothEnabled.Positive := by
  show ∀ b ∈ bothEnabled.breaks, 0 < b.lastEnd
  decide +kernel

theorem distinct_bothEnabled : bothEnabled.Distinct := by
  show (bothEnabled.breaks.map Break.type).Nodup
  decide

/-- At 1920 the movement break is due and the eyesight break is not. -/
theorem answers_iff_bothEnabled :
    bothEnabled.Answers 1920 (bothEnabled.getNextBreakDue 1920) ↔ bothEnabled.LastAgrees 1920 :=
  answers_iff positive_bothEnabled distinct_bothEnabled

/-- At 2000 both are due: the answer is the movement break with the due time of the eyesight
break. -/
theorem not_answers_bothEnabled :
    ¬ ∀ (s : State) (now : ℚ), s.Positive → s.Distinct → s.Answers now (s.getNextBreakDue now) := by
  intro h
  have hnext : bothEnabled.getNextBreakDue 2000 = (some .movement, 1950) := by decide +kernel
  obtain ⟨b, hb, -, -, heq⟩ :=
    (h bothEnabled 2000 positive_bothEnabled distinct_bothEnabled).due (by decide +kernel)
  rw [hnext] at heq
  have hother : ∀ b ∈ bothEnabled.breaks,
      (some BreakType.movement, (1950 : ℚ)) ≠ (some b.type, bothEnabled.wouldBeDueAt b) := by
    decide +kernel
  exact hother b hb heq

end BreakManager
