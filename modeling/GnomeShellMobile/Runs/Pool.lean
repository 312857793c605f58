import Mathlib.Data.List.Perm.Basic
import Mathlib.Data.List.Nodup

/-!
# Runs — pools of suspended continuations

An asynchronous program keeps, between two events, a collection of continuations that wait for
an answer. Any of them may be the next one to resume, so the pool is a list from which a
position is taken out; what the continuation does then may put new ones in.
-/

namespace Runs

variable {τ κ : Type*}
variable {pool rest : List τ} {i : Nat} {t : τ}

/-- Take the continuation at position `i` out of the pool. -/
def take (pool : List τ) (i : Nat) : Option (τ × List τ) :=
  pool[i]?.map fun t => (t, pool.eraseIdx i)

section

variable (h : take pool i = some (t, rest))
include h

theorem getElem?_of_take : pool[i]? = some t := by
  obtain ⟨u, hget, hpair⟩ := Option.map_eq_some_iff.mp h
  rw [hget, (Prod.mk.inj hpair).1]

theorem take_perm : pool.Perm (t :: rest) := by
  obtain ⟨u, hget, hpair⟩ := Option.map_eq_some_iff.mp h
  obtain ⟨rfl, rfl⟩ := Prod.mk.inj hpair
  obtain ⟨hlt, rfl⟩ := List.getElem?_eq_some_iff.mp hget
  exact (List.getElem_cons_eraseIdx_perm hlt).symm

theorem take_sublist : rest.Sublist pool := by
  obtain ⟨u, -, hpair⟩ := Option.map_eq_some_iff.mp h
  exact (Prod.mk.inj hpair).2 ▸ List.eraseIdx_sublist _ _

theorem take_mem : t ∈ pool :=
  (take_perm h).mem_iff.mpr (by simp)

end

theorem mem_of_take {t u : τ} (h : take pool i = some (t, rest)) (hu : u ∈ rest) : u ∈ pool :=
  (take_perm h).mem_iff.mpr (List.mem_cons_of_mem _ hu)

theorem mem_cases_of_take {t u : τ}
    (h : take pool i = some (t, rest)) (hu : u ∈ pool) : u = t ∨ u ∈ rest :=
  List.mem_cons.mp ((take_perm h).mem_iff.mp hu)

theorem nodup_filterMap_take (key : τ → Option κ)
    (h : take pool i = some (t, rest)) (hnodup : (pool.filterMap key).Nodup) :
    ((t :: rest).filterMap key).Nodup :=
  ((take_perm h).filterMap key).nodup_iff.mp hnodup

end Runs
