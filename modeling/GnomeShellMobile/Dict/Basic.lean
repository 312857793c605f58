import Mathlib.Data.List.Nodup
import Mathlib.Data.List.Perm.Basic

/-!
# Dict — maps that remember the order of insertion

A finite map as scripting languages have it: its entries are visited in the order in which their
keys were first set, and setting a key again keeps its place. No key occurs twice, which is
part of the type, so an entry is found by its key alone (`Dict.get?_eq_some`) and every other
fact about a lookup is a fact about membership.
-/

structure Dict (κ ν : Type*) where
  entries : List (κ × ν)
  nodup : (entries.map Prod.fst).Nodup

namespace Dict

variable {κ ν : Type*}
variable {d : Dict κ ν} {k : κ}

def empty : Dict κ ν := ⟨[], List.nodup_nil⟩

variable (d)

def keys : List κ := d.entries.map Prod.fst

def values : List ν := d.entries.map Prod.snd

def size : Nat := d.entries.length

variable {d}

variable [DecidableEq κ]

variable (d)

def get? (k : κ) : Option ν := (d.entries.find? (·.1 = k)).map Prod.snd

def has (k : κ) : Prop := k ∈ d.keys

instance (k : κ) : Decidable (d.has k) := inferInstanceAs (Decidable (k ∈ d.keys))

variable {d}

/-- The entries with `k` set to `v`: in its place if there is one, else at the end. -/
def setEntries (l : List (κ × ν)) (k : κ) (v : ν) : List (κ × ν) :=
  if k ∈ l.map Prod.fst then l.map fun e => if e.1 = k then (k, v) else e else l ++ [(k, v)]

theorem keys_setEntries (l : List (κ × ν)) (k : κ) (v : ν) : (setEntries l k v).map Prod.fst =
    if k ∈ l.map Prod.fst then l.map Prod.fst else l.map Prod.fst ++ [k] := by
  unfold setEntries
  split
  · rw [List.map_map]
    refine List.map_congr_left fun e _ => ?_
    simp only [Function.comp_apply]
    split
    · next h => exact h.symm
    · rfl
  · simp

def set (d : Dict κ ν) (k : κ) (v : ν) : Dict κ ν where
  entries := setEntries d.entries k v
  nodup := by
    rw [keys_setEntries]
    split
    · exact d.nodup
    · next h => exact List.nodup_append.mpr ⟨d.nodup, List.nodup_singleton k, fun a ha b hb => by
        rw [List.mem_singleton.mp hb]
        exact fun h' => h (h' ▸ ha)⟩

def erase (d : Dict κ ν) (k : κ) : Dict κ ν where
  entries := d.entries.filter (·.1 ≠ k)
  nodup := d.nodup.sublist (List.filter_sublist.map Prod.fst)

/-! ## Lookup is membership -/

theorem get?_eq_some {v : ν} : d.get? k = some v ↔ (k, v) ∈ d.entries := by
  constructor
  · intro h
    obtain ⟨⟨k', v'⟩, hfind, rfl⟩ := Option.map_eq_some_iff.mp h
    have hk : k' = k := by simpa using List.find?_some hfind
    exact hk ▸ List.mem_of_find?_eq_some hfind
  · intro h
    have hsome : (d.entries.find? (·.1 = k)).isSome := by
      rw [List.find?_isSome]
      exact ⟨_, h, by simp⟩
    obtain ⟨e, he⟩ := Option.isSome_iff_exists.mp hsome
    have hk : e.1 = k := by simpa using List.find?_some he
    have hmem := List.mem_of_find?_eq_some he
    have heq : e = (k, v) := List.inj_on_of_nodup_map d.nodup hmem h hk
    rw [get?, he, heq]
    rfl

theorem mem_keys_iff : k ∈ d.keys ↔ ∃ v, d.get? k = some v := by
  simp only [get?_eq_some, keys, List.mem_map, Prod.exists, exists_and_right, exists_eq_right]

theorem get?_eq_none : d.get? k = none ↔ k ∉ d.keys := by
  rw [mem_keys_iff, Option.eq_none_iff_forall_ne_some, not_exists]

theorem has_iff : d.has k ↔ ∃ v, d.get? k = some v := mem_keys_iff

@[simp] theorem get?_empty (k : κ) : (empty : Dict κ ν).get? k = none := rfl

theorem mem_set {k k' : κ} {v v' : ν} :
    (k', v') ∈ (d.set k v).entries ↔ k' = k ∧ v' = v ∨ k' ≠ k ∧ (k', v') ∈ d.entries := by
  simp only [set, setEntries]
  by_cases hk : k ∈ d.entries.map Prod.fst
  · rw [if_pos hk, List.mem_map]
    constructor
    · rintro ⟨e, he, heq⟩
      split at heq
      · exact .inl (by simpa [eq_comm] using heq)
      · next hne =>
        rw [heq] at he hne
        exact .inr ⟨hne, he⟩
    · rintro (⟨rfl, rfl⟩ | ⟨hne, hmem⟩)
      · obtain ⟨e, he, hek⟩ := List.mem_map.mp hk
        exact ⟨e, he, if_pos hek⟩
      · exact ⟨_, hmem, if_neg hne⟩
  · rw [if_neg hk, List.mem_append, List.mem_singleton, Prod.mk.injEq]
    constructor
    · rintro (hmem | h)
      · refine .inr ⟨fun h => hk ?_, hmem⟩
        exact h ▸ List.mem_map.mpr ⟨_, hmem, rfl⟩
      · exact .inl h
    · rintro (h | ⟨-, hmem⟩)
      · exact .inr h
      · exact .inl hmem

theorem mem_erase {k k' : κ} {v' : ν} :
    (k', v') ∈ (d.erase k).entries ↔ k' ≠ k ∧ (k', v') ∈ d.entries := by
  simp [erase, and_comm]

/-! ## What an update does to a lookup -/

variable (d)

@[simp] theorem get?_set_self (k : κ) (v : ν) : (d.set k v).get? k = some v :=
  get?_eq_some.mpr (mem_set.mpr (.inl ⟨rfl, rfl⟩))

theorem get?_set_of_ne {k k' : κ} (v : ν) (h : k' ≠ k) :
    (d.set k v).get? k' = d.get? k' := by
  ext v'
  simp [get?_eq_some, mem_set, h]

theorem get?_set (k k' : κ) (v : ν) :
    (d.set k v).get? k' = if k' = k then some v else d.get? k' := by
  split
  · next h => rw [h, get?_set_self]
  · next h => exact get?_set_of_ne d v h

@[simp] theorem get?_erase_self (k : κ) : (d.erase k).get? k = none := by
  ext v
  simp [get?_eq_some, mem_erase]

theorem get?_erase_of_ne {k k' : κ} (h : k' ≠ k) :
    (d.erase k).get? k' = d.get? k' := by
  ext v'
  simp [get?_eq_some, mem_erase, h]

theorem get?_erase (k k' : κ) :
    (d.erase k).get? k' = if k' = k then none else d.get? k' := by
  split
  · next h => rw [h, get?_erase_self]
  · next h => exact get?_erase_of_ne d h

theorem erase_set (k : κ) (v : ν) : (d.set k v).erase k = d.erase k := by
  have hentries : (setEntries d.entries k v).filter (·.1 ≠ k) = d.entries.filter (·.1 ≠ k) := by
    rw [setEntries]
    split
    · rw [List.filter_map]
      have hfilter : d.entries.filter ((fun e : κ × ν => decide (e.1 ≠ k)) ∘
          fun e => if e.1 = k then (k, v) else e) = d.entries.filter (·.1 ≠ k) := by
        apply List.filter_congr
        intro e _
        by_cases he : e.1 = k <;> simp [he]
      rw [hfilter]
      calc (d.entries.filter (·.1 ≠ k)).map (fun e => if e.1 = k then (k, v) else e)
          = (d.entries.filter (·.1 ≠ k)).map id := by
            apply List.map_congr_left
            intro e he
            exact if_neg (of_decide_eq_true (List.mem_filter.mp he).2)
        _ = d.entries.filter (·.1 ≠ k) := List.map_id _
    · simp
  unfold erase set
  congr 1

theorem keys_erase (k : κ) : (d.erase k).keys = d.keys.filter (· ≠ k) := by
  rw [keys, keys, erase, List.filter_map]
  rfl

variable {d}

theorem size_set_of_get?_eq_none (h : d.get? k = none) (v : ν) : (d.set k v).size = d.size + 1 := by
  have hkey : k ∉ d.entries.map Prod.fst := get?_eq_none.mp h
  show (setEntries d.entries k v).length = d.entries.length + 1
  rw [setEntries, if_neg hkey, List.length_append, List.length_singleton]

theorem get?_of_size_eq_zero (h : d.size = 0) (k : κ) : d.get? k = none := by
  rw [get?, List.length_eq_zero_iff.mp h]
  rfl

theorem exists_of_size_ne_zero (h : d.size ≠ 0) : ∃ k v, d.get? k = some v := by
  obtain ⟨⟨k, v⟩, hmem⟩ := List.exists_mem_of_length_pos (Nat.pos_of_ne_zero h)
  exact ⟨k, v, get?_eq_some.mpr hmem⟩

theorem eq_of_size_le_one {k k' : κ} {v v' : ν} (hsize : d.size ≤ 1)
    (hk : d.get? k = some v) (hk' : d.get? k' = some v') : k' = k := by
  rw [get?_eq_some] at hk hk'
  match hd : d.entries with
  | [] => simp [hd] at hk
  | [e] =>
    rw [hd, List.mem_singleton] at hk hk'
    exact congrArg Prod.fst (hk'.trans hk.symm)
  | e :: f :: l => simp [size, hd] at hsize

theorem exists_ne_of_one_lt_size (hsize : 1 < d.size) (k : κ) :
    ∃ k' v, k' ≠ k ∧ d.get? k' = some v := by
  have hnodup := d.nodup
  match hd : d.entries with
  | [] => simp [size, hd] at hsize
  | [e] => simp [size, hd] at hsize
  | (k₁, v₁) :: (k₂, v₂) :: l =>
    rw [hd] at hnodup
    by_cases h : k₁ = k
    · refine ⟨k₂, v₂, ?_, get?_eq_some.mpr (by simp [hd])⟩
      rintro rfl
      simp [h] at hnodup
    · exact ⟨k₁, v₁, h, get?_eq_some.mpr (by simp [hd])⟩

end Dict
