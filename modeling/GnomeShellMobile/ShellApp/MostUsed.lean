import GnomeShellMobile.ShellApp.Usage
import Mathlib.Data.List.Sort
import Mathlib.Data.Rat.Floor
import Mathlib.Order.WithBot
import Mathlib.Tactic.Linarith

/-!
# ShellAppUsage — the most used applications

`shell_app_usage_compare` and `shell_app_usage_get_most_used` of `src/shell-app-usage.c`. Both give
the difference of two scores back as an `int`. C drops the fraction, and says nothing of a difference
that no `int` holds, so the conversion is a parameter; so is the sort of GLib, of which only what it
does to a total preorder is used.

* **`rank`** — the score, or nothing: what the comparison is meant to compare.
* **`compare_sign`** — it does, if scores that differ do so by one at least.
* **`ranks_iff`** — the headline: and only then.
-/

namespace ShellAppUsage

def truncate (q : ℚ) : ℤ := if 0 ≤ q then ⌊q⌋ else -⌊-q⌋

/-- A conversion of a `double` to an `int`. -/
def Converts (toInt : ℚ → ℤ) : Prop :=
  ∀ q : ℚ, -(2 ^ 31) - 1 < q → q < 2 ^ 31 → toInt q = truncate q

variable {α : Type*}

section

variable (toInt : ℚ → ℤ) (sort : (α → α → ℤ) → List α → List α)

variable (s : State α)

def State.compare (idA idB : α) : ℤ :=
  match s.appUsages idA, s.appUsages idB with
  | none, none => 0
  | none, some _ => 1
  | some _, none => -1
  | some usageA, some usageB => toInt (usageB.score - usageA.score)

/-- `sort_apps_by_usage`, for applications of the table. -/
def State.sortAppsByUsage (appA appB : α) : ℤ :=
  toInt ((s.usage appB).score - (s.usage appA).score)

/-- `shell_app_usage_get_most_used`. The ids of the table are visited in the order of `ids`, and
`known` says which of them `shell_app_system_lookup_app` finds. -/
def State.getMostUsed (known : α → Bool) (ids : List α) : List α :=
  let apps := ids.foldl (fun apps appid => if known appid then appid :: apps else apps) []
  sort (s.sortAppsByUsage toInt) apps

end

/-! ## What is meant to hold -/

structure Preorders (cmp : α → α → ℤ) : Prop where
  total : ∀ a b, cmp a b ≤ 0 ∨ cmp b a ≤ 0
  trans : ∀ a b c, cmp a b ≤ 0 → cmp b c ≤ 0 → cmp a c ≤ 0
  strict : ∀ a b, cmp a b < 0 ↔ 0 < cmp b a

theorem Preorders.of_rank {β : Type*} [LinearOrder β] {cmp : α → α → ℤ} (rank : α → β)
    (hsign : ∀ a b, (cmp a b < 0 ↔ rank a < rank b) ∧ (0 < cmp a b ↔ rank b < rank a)) :
    Preorders cmp := by
  have hle : ∀ a b, cmp a b ≤ 0 ↔ rank a ≤ rank b := by
    intro a b
    rw [← not_lt, (hsign a b).2, not_lt]
  constructor
  · intro a b
    rw [hle, hle]
    exact le_total _ _
  · intro a b c hab hbc
    rw [hle] at hab hbc ⊢
    exact hab.trans hbc
  · intro a b
    rw [(hsign a b).1, (hsign b a).2]

/-- What `g_slist_sort_with_data` does. -/
def Sorts (sort : (α → α → ℤ) → List α → List α) : Prop :=
  ∀ (cmp : α → α → ℤ) (l : List α), (∀ a ∈ l, ∀ b ∈ l, cmp a b ≤ 0 ∨ cmp b a ≤ 0) →
    (∀ a ∈ l, ∀ b ∈ l, ∀ c ∈ l, cmp a b ≤ 0 → cmp b c ≤ 0 → cmp a c ≤ 0) →
    (sort cmp l).Perm l ∧ (sort cmp l).Pairwise fun a b => cmp a b ≤ 0

structure Ranks (toInt : ℚ → ℤ) (s : State α) : Prop where
  preorders : Preorders (s.compare toInt)
  greater : ∀ a b usageA usageB, s.appUsages a = some usageA → s.appUsages b = some usageB →
    usageB.score < usageA.score → s.compare toInt a b < 0
  last : ∀ a b usageA, s.appUsages a = some usageA → s.appUsages b = none → s.compare toInt a b < 0

def Lists (toInt : ℚ → ℤ) (sort : (α → α → ℤ) → List α → List α) (s : State α) : Prop :=
  ∀ (known : α → Bool) (ids : List α), ids.Nodup → (∀ a, a ∈ ids ↔ (s.appUsages a).isSome) →
    (s.getMostUsed toInt sort known ids).Perm (ids.filter known) ∧
      (s.getMostUsed toInt sort known ids).Pairwise fun a b => s.compare toInt a b ≤ 0

/-- Two scores that differ do so by one at least, and by no more than an `int` holds. -/
def Spaced (s : State α) : Prop :=
  ∀ a b usageA usageB, s.appUsages a = some usageA → s.appUsages b = some usageB →
    usageA.score < usageB.score →
      1 ≤ usageB.score - usageA.score ∧ usageB.score - usageA.score < 2 ^ 31

/-! ## Conversions -/

theorem truncate_zero : truncate 0 = 0 := by decide

theorem truncate_pos {q : ℚ} (h : 1 ≤ q) : 0 < truncate q := by
  rw [truncate, if_pos (by linarith)]
  exact Int.floor_pos.mpr h

theorem truncate_neg {q : ℚ} (h : q ≤ -1) : truncate q < 0 := by
  rw [truncate, if_neg (by linarith)]
  have hfloor : 0 < ⌊-q⌋ := Int.floor_pos.mpr (by linarith)
  omega

theorem truncate_eq_zero {q : ℚ} (h : |q| < 1) : truncate q = 0 := by
  obtain ⟨hlow, hhigh⟩ := abs_lt.mp h
  unfold truncate
  split
  · next hq => exact Int.floor_eq_zero_iff.mpr ⟨hq, hhigh⟩
  · next hq =>
    have hfloor : ⌊-q⌋ = 0 := Int.floor_eq_zero_iff.mpr ⟨by linarith, by linarith⟩
    rw [hfloor, neg_zero]

/-! ## The order -/

def State.rank (s : State α) (id : α) : WithBot ℚ :=
  match s.appUsages id with
  | none => ⊥
  | some usage => (usage.score : WithBot ℚ)

variable {s : State α} {toInt : ℚ → ℤ} {sort : (α → α → ℤ) → List α → List α}

section

variable (hspaced : Spaced s)
include hspaced

theorem convert_sign (hconverts : Converts toInt) {a b : α}
    {usageA usageB : UsageData} (ha : s.appUsages a = some usageA) (hb : s.appUsages b = some usageB) :
    (toInt (usageB.score - usageA.score) < 0 ↔ usageB.score < usageA.score) ∧
      (0 < toInt (usageB.score - usageA.score) ↔ usageA.score < usageB.score) := by
  rcases lt_trichotomy usageA.score usageB.score with hlt | heq | hgt
  · obtain ⟨hone, hrange⟩ := hspaced a b usageA usageB ha hb hlt
    have hpos : 0 < toInt (usageB.score - usageA.score) := by
      rw [hconverts _ (by linarith) hrange]
      exact truncate_pos hone
    exact ⟨⟨fun h => absurd h (not_lt_of_gt hpos), fun h => absurd h (not_lt_of_gt hlt)⟩,
      fun _ => hlt, fun _ => hpos⟩
  · have hzero : toInt (usageB.score - usageA.score) = 0 := by
      rw [heq, sub_self, hconverts 0 (by norm_num) (by norm_num), truncate_zero]
    rw [hzero, heq]
    simp
  · obtain ⟨hone, hrange⟩ := hspaced b a usageB usageA hb ha hgt
    have hneg : toInt (usageB.score - usageA.score) < 0 := by
      rw [hconverts _ (by linarith) (by linarith)]
      exact truncate_neg (by linarith)
    exact ⟨⟨fun _ => hgt, fun _ => hneg⟩,
      fun h => absurd h (not_lt_of_gt hneg), fun h => absurd h (not_lt_of_gt hgt)⟩

theorem compare_sign (hconverts : Converts toInt) (a b : α) :
    (s.compare toInt a b < 0 ↔ s.rank b < s.rank a) ∧
      (0 < s.compare toInt a b ↔ s.rank a < s.rank b) := by
  unfold State.compare State.rank
  cases ha : s.appUsages a with
  | none =>
    cases hb : s.appUsages b with
    | none => simp
    | some usageB => simp [WithBot.bot_lt_coe]
  | some usageA =>
    cases hb : s.appUsages b with
    | none => simp
    | some usageB =>
      obtain ⟨hneg, hpos⟩ := convert_sign hspaced hconverts ha hb
      exact ⟨hneg.trans WithBot.coe_lt_coe.symm, hpos.trans WithBot.coe_lt_coe.symm⟩

theorem preorders_compare (hconverts : Converts toInt) :
    Preorders (s.compare toInt) :=
  .of_rank (fun a => OrderDual.toDual (s.rank a)) fun a b => compare_sign hspaced hconverts a b

theorem Ranks.of_spaced (hconverts : Converts toInt) : Ranks toInt s := by
  refine ⟨preorders_compare hspaced hconverts, ?_, ?_⟩
  · intro a b usageA usageB ha hb hlt
    rw [(compare_sign hspaced hconverts a b).1]
    unfold State.rank
    rw [ha, hb]
    exact WithBot.coe_lt_coe.mpr hlt
  · intro a b usageA ha hb
    rw [(compare_sign hspaced hconverts a b).1]
    unfold State.rank
    rw [ha, hb]
    exact WithBot.bot_lt_coe _

end

/-! ## The list -/

theorem compare_eq_sort {a b : α} (ha : (s.appUsages a).isSome) (hb : (s.appUsages b).isSome) :
    s.sortAppsByUsage toInt a b = s.compare toInt a b := by
  obtain ⟨usageA, ha⟩ := Option.isSome_iff_exists.mp ha
  obtain ⟨usageB, hb⟩ := Option.isSome_iff_exists.mp hb
  unfold State.sortAppsByUsage State.compare State.usage
  rw [ha, hb]
  rfl

theorem foldl_known (known : α → Bool) (ids apps : List α) :
    ids.foldl (fun apps appid => if known appid then appid :: apps else apps) apps =
      (ids.filter known).reverse ++ apps := by
  induction ids generalizing apps with
  | nil => rfl
  | cons id ids ih =>
    rw [List.foldl_cons, ih]
    cases hknown : known id with
    | true => simp [hknown]
    | false => simp [hknown]

theorem Lists.of_spaced (hsort : Sorts sort) (hspaced : Spaced s) (hconverts : Converts toInt) :
    Lists toInt sort s := by
  intro known ids _ hids
  have hpreorders := preorders_compare hspaced hconverts
  have happs : ids.foldl (fun apps appid => if known appid then appid :: apps else apps) [] =
      (ids.filter known).reverse := by
    rw [foldl_known, List.append_nil]
  have hsome : ∀ a ∈ (ids.filter known).reverse, (s.appUsages a).isSome := by
    intro a ha
    exact (hids a).mp (List.mem_of_mem_filter (List.mem_reverse.mp ha))
  obtain ⟨hperm, hpairwise⟩ := hsort (s.sortAppsByUsage toInt) (ids.filter known).reverse
    (fun a ha b hb => by
      rw [compare_eq_sort (hsome a ha) (hsome b hb), compare_eq_sort (hsome b hb) (hsome a ha)]
      exact hpreorders.total a b)
    (fun a ha b hb c hc hab hbc => by
      rw [compare_eq_sort (hsome a ha) (hsome b hb)] at hab
      rw [compare_eq_sort (hsome b hb) (hsome c hc)] at hbc
      rw [compare_eq_sort (hsome a ha) (hsome c hc)]
      exact hpreorders.trans a b c hab hbc)
  unfold State.getMostUsed
  rw [happs]
  refine ⟨hperm.trans (List.reverse_perm _), hpairwise.imp_of_mem fun ha hb hab => ?_⟩
  rwa [compare_eq_sort (hsome _ (hperm.mem_iff.mp ha)) (hsome _ (hperm.mem_iff.mp hb))] at hab

/-! ## Exactly when -/

/-- The conversion that gives nothing for what no `int` holds. -/
def dropOverflow (q : ℚ) : ℤ := if -(2 ^ 31) - 1 < q ∧ q < 2 ^ 31 then truncate q else 0

theorem converts_dropOverflow : Converts dropOverflow := fun _ hlow hhigh => if_pos ⟨hlow, hhigh⟩

theorem dropOverflow_eq_zero {q : ℚ} (hpos : 0 < q) (h : ¬(1 ≤ q ∧ q < 2 ^ 31)) :
    dropOverflow q = 0 := by
  unfold dropOverflow
  split
  · next hrange =>
    have hlt : q < 1 := by
      rw [not_and, not_lt] at h
      exact not_le.mp fun hone => absurd (h hone) (not_le.mpr hrange.2)
    exact truncate_eq_zero (by rw [abs_of_pos hpos]; exact hlt)
  · rfl

/-- Whatever C makes of a difference that no `int` holds, the applications are ranked by their scores
and listed in that order, if and only if the scores are spaced. -/
theorem ranks_iff (hsort : Sorts sort) (s : State α) :
    (∀ toInt, Converts toInt → Ranks toInt s ∧ Lists toInt sort s) ↔ Spaced s := by
  constructor
  · intro h a b usageA usageB ha hb hlt
    by_contra hnot
    have hranks := (h dropOverflow converts_dropOverflow).1
    have hgreater := hranks.greater b a usageB usageA hb ha hlt
    have hpos : 0 < s.compare dropOverflow a b := (hranks.preorders.strict b a).mp hgreater
    unfold State.compare at hpos
    rw [ha, hb] at hpos
    dsimp only at hpos
    rw [dropOverflow_eq_zero (by linarith) hnot] at hpos
    exact absurd hpos (lt_irrefl 0)
  · intro hspaced toInt hconverts
    exact ⟨.of_spaced hspaced hconverts, .of_spaced hsort hspaced hconverts⟩

theorem sorts_mergeSort : Sorts fun (cmp : α → α → ℤ) l => l.mergeSort fun a b => cmp a b ≤ 0 := by
  intro cmp l htotal htrans
  have hsorted := @List.pairwise_mergeSort { a // a ∈ l }
    (fun a b => decide (cmp a.1 b.1 ≤ 0))
    (fun a b c hab hbc => by
      rw [decide_eq_true_eq] at *
      exact htrans a a.2 b b.2 c c.2 hab hbc)
    (fun a b => by
      rw [Bool.or_eq_true, decide_eq_true_eq, decide_eq_true_eq]
      exact htotal a a.2 b b.2) l.attach
  have hmap := List.map_mergeSort (r := fun a b : { a // a ∈ l } => decide (cmp a.1 b.1 ≤ 0))
    (s := fun a b => decide (cmp a b ≤ 0)) (f := Subtype.val) (l := l.attach) fun _ _ _ _ => rfl
  rw [List.attach_map_subtype_val] at hmap
  refine ⟨List.mergeSort_perm _ _, ?_⟩
  show List.Pairwise _ (l.mergeSort fun a b => decide (cmp a b ≤ 0))
  rw [← hmap, List.pairwise_map]
  exact hsorted.imp of_decide_eq_true

/-- `b` is used so long that all scores are halved, and `c` is not used. -/
def halved : List (Event String) :=
  [.focusAppChanged (some "a") 0, .focusAppChanged (some "b") 7, .focusAppChanged none 180012,
    .appStateChanged "c" false true 180012]

theorem ranks_iff_halved : ∃ s, Runs.run step (.new (fun _ => none) none true 0) halved = some s ∧
    ((∀ toInt, Converts toInt → Ranks toInt s ∧
      Lists toInt (fun cmp l => l.mergeSort fun a b => cmp a b ≤ 0) s) ↔ Spaced s) := by
  have hrun : (Runs.run step (.new (fun _ => none) none true 0) halved).isSome = true := by
    decide +kernel
  obtain ⟨s, hs⟩ := Option.isSome_iff_exists.mp hrun
  exact ⟨s, hs, ranks_iff sorts_mergeSort s⟩

/-- `a` has one half, and ranks no higher than `c`, which has nothing. -/
theorem not_ranks_halved : ∃ s, Runs.run step (.new (fun _ => none) none true 0) halved = some s ∧
    ∀ toInt, Converts toInt → ¬Ranks toInt s := by
  have hused : (Runs.run step (.new (fun _ => none) none true 0) halved).bind (·.appUsages "a") =
      some ⟨1 / 2, 7⟩ := by decide +kernel
  have hunused : (Runs.run step (.new (fun _ => none) none true 0) halved).bind (·.appUsages "c") =
      some ⟨0, 180012⟩ := by decide +kernel
  obtain ⟨s, hs, ha⟩ := Option.bind_eq_some_iff.mp hused
  rw [hs, Option.bind_some] at hunused
  refine ⟨s, hs, fun toInt hconverts hranks => ?_⟩
  have hgreater := hranks.greater "a" "c" _ _ ha hunused (by norm_num)
  unfold State.compare at hgreater
  rw [ha, hunused] at hgreater
  dsimp only at hgreater
  rw [hconverts _ (by norm_num) (by norm_num), truncate_eq_zero (by norm_num [abs_lt])] at hgreater
  exact absurd hgreater (lt_irrefl 0)

end ShellAppUsage
