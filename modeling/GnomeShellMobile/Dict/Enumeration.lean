import Mathlib.Data.List.Sort

/-!
# Dict — enumeration of the keys of an object

An object of a scripting language is not always enumerated as its keys were set: the keys that are
array indices come first, in ascending order. Here `index` says which keys those are.

* `Dict.Before`: what the order of an enumeration asks of two keys.
* `Dict.enumerate`: the entries in that order; it is stable, so the other keys stay as they were set.
-/

namespace Dict

variable {κ ν μ : Type*}

variable (index : κ → Option ℕ)

/-- `a` may be enumerated before `b` if it was set before. -/
def Before (a b : κ) : Prop :=
  match index a, index b with
  | some i, some j => i ≤ j
  | none, some _ => False
  | _, none => True

instance (a b : κ) : Decidable (Before index a b) :=
  match h : index a, h' : index b with
  | some i, some j => decidable_of_iff (i ≤ j) (by simp only [Before, h, h'])
  | none, some _ => .isFalse (by simp only [Before, h, h', not_false_iff])
  | _, none => .isTrue (by simp only [Before, h'])

theorem before_iff {index : κ → Option ℕ} {a b : κ} : Before index a b ↔
      index b = none ∨ ∃ i j, index a = some i ∧ index b = some j ∧ i ≤ j := by
  cases ha : index a <;> cases hb : index b <;> simp [Before, ha, hb]

instance :
    Std.Total fun a b : κ × ν => Before index a.1 b.1 where
  total a b := by
    rw [before_iff, before_iff]
    cases ha : index a.1 <;> cases hb : index b.1 <;> simp
    omega

instance :
    IsTrans (κ × ν) fun a b => Before index a.1 b.1 where
  trans a b c hab hbc := by
    rw [before_iff] at hab hbc ⊢
    obtain hc | ⟨j, k, hb, hc, hjk⟩ := hbc
    · exact Or.inl hc
    · obtain hb' | ⟨i, j', ha, hb', hij⟩ := hab
      · rw [hb] at hb'
        cases hb'
      · rw [hb] at hb'
        cases hb'
        exact Or.inr ⟨i, k, ha, hc, Nat.le_trans hij hjk⟩

variable (l : List (κ × ν))

def enumerate : List (κ × ν) :=
  l.insertionSort fun a b => Before index a.1 b.1

theorem enumerate_perm : (enumerate index l).Perm l :=
  List.perm_insertionSort _ l

theorem enumerate_map (f : κ × ν → μ) (l : List (κ × ν)) :
    (enumerate index l).map (fun e => (e.1, f e)) = enumerate index (l.map fun e => (e.1, f e)) :=
  List.map_insertionSort (fun a b => Before index a.1 b.1) (fun a b => Before index a.1 b.1)
    (fun e => (e.1, f e)) l fun _ _ _ _ => Iff.rfl

theorem pairwise_enumerate :
    (enumerate index l).Pairwise fun a b => Before index a.1 b.1 :=
  List.pairwise_insertionSort _ l

theorem enumerate_eq_self_iff {index : κ → Option ℕ} {l : List (κ × ν)} :
    enumerate index l = l ↔ (l.map Prod.fst).Pairwise (Before index) := by
  rw [List.pairwise_map]
  constructor
  · intro h
    rw [← h]
    exact pairwise_enumerate index l
  · exact fun h => List.Pairwise.insertionSort_eq h

theorem pairwise_append_singleton {index : κ → Option ℕ} {l : List κ} {a : κ} :
    (l ++ [a]).Pairwise (Before index) ↔
      l.Pairwise (Before index) ∧ ∀ b ∈ l, Before index b a := by
  rw [List.pairwise_append]
  simp

end Dict
