import Mathlib.Data.List.Basic

/-!
# Bytes — a block of memory

A block of memory as the list of its bytes, and the functions of C that write it. `none` is an access
beyond the block.

* **`insert_bytes`**: what is behind a position is moved away and the gap is written.
* **`delete_bytes`**: what is behind a stretch is moved over it.
-/

namespace Bytes

variable (mem : List UInt8)

def memmove (dst src n : ℕ) : Option (List UInt8) :=
  if src + n ≤ mem.length ∧ dst + n ≤ mem.length then
    some (mem.take dst ++ (mem.drop src).take n ++ mem.drop (dst + n))
  else none

def memcpy (dst : ℕ) (chars : List UInt8) (n : ℕ) : Option (List UInt8) :=
  if n ≤ chars.length ∧ dst + n ≤ mem.length then
    some (mem.take dst ++ chars.take n ++ mem.drop (dst + n))
  else none

def store (i : ℕ) (b : UInt8) : Option (List UInt8) :=
  if i < mem.length then some (mem.set i b) else none

theorem memmove_eq {mem p moved q a old c : List UInt8} (hsrc : mem = p ++ moved ++ q)
    (hdst : mem = a ++ old ++ c) (hlen : old.length = moved.length) :
    memmove mem a.length p.length moved.length = some (a ++ moved ++ c) := by
  have hsrc' : p.length + moved.length ≤ mem.length := by simp [hsrc]
  have hdst' : a.length + moved.length ≤ mem.length := by simp [hdst, ← hlen]
  have hmoved : (mem.drop p.length).take moved.length = moved := by
    rw [hsrc, List.append_assoc, List.drop_left, List.take_left]
  have hfront : mem.take a.length = a := by
    rw [hdst, List.append_assoc, List.take_left]
  have hbehind : mem.drop (a.length + moved.length) = c := by
    rw [hdst, ← hlen, ← List.length_append, List.drop_left]
  rw [memmove, if_pos ⟨hsrc', hdst'⟩, hmoved, hfront, hbehind]

theorem memcpy_eq {mem a old c ins : List UInt8} (hdst : mem = a ++ old ++ c)
    (hlen : old.length = ins.length) (chars : List UInt8) :
    memcpy mem a.length (ins ++ chars) ins.length = some (a ++ ins ++ c) := by
  have hdst' : a.length + ins.length ≤ mem.length := by simp [hdst, ← hlen]
  have hchars : ins.length ≤ (ins ++ chars).length := by simp
  have hfront : mem.take a.length = a := by
    rw [hdst, List.append_assoc, List.take_left]
  have hbehind : mem.drop (a.length + ins.length) = c := by
    rw [hdst, ← hlen, ← List.length_append, List.drop_left]
  rw [memcpy, if_pos ⟨hchars, hdst'⟩, List.take_left, hfront, hbehind]

theorem store_eq (a c : List UInt8) (old b : UInt8) :
    store (a ++ old :: c) a.length b = some (a ++ b :: c) := by
  rw [store, if_pos (by simp)]
  simp

theorem insert_bytes (front back rest ins chars : List UInt8) (hroom : ins.length ≤ rest.length) :
    ((memmove (front ++ back ++ rest) (front.length + ins.length) front.length back.length).bind
        fun mem => memcpy mem front.length (ins ++ chars) ins.length) =
      some (front ++ ins ++ back ++ rest.drop ins.length) := by
  -- the bytes of the gap, and those that `back` is moved over
  obtain ⟨gap, hgap⟩ : ∃ gap, gap = (back ++ rest).take ins.length := ⟨_, rfl⟩
  obtain ⟨old, hold⟩ : ∃ old, old = ((back ++ rest).drop ins.length).take back.length := ⟨_, rfl⟩
  have hgaplen : gap.length = ins.length := by
    rw [hgap, List.length_take, List.length_append]
    omega
  have holdlen : old.length = back.length := by
    rw [hold, List.length_take, List.length_drop, List.length_append]
    omega
  have hbehind : ((back ++ rest).drop ins.length).drop back.length = rest.drop ins.length := by
    rw [List.drop_drop, Nat.add_comm, List.drop_length_add_append]
  have hsplit : back ++ rest = gap ++ (old ++ rest.drop ins.length) := by
    rw [← hbehind, hold, List.take_append_drop, hgap, List.take_append_drop]
  have hdst : front ++ back ++ rest = (front ++ gap) ++ old ++ rest.drop ins.length := by
    rw [List.append_assoc, hsplit]
    simp only [List.append_assoc]
  have hmove := memmove_eq (p := front) rfl hdst holdlen
  rw [List.length_append, hgaplen] at hmove
  rw [hmove, Option.bind_some]
  have hsplit' : front ++ gap ++ back ++ rest.drop ins.length =
      front ++ gap ++ (back ++ rest.drop ins.length) := List.append_assoc _ _ _
  have hcopy := memcpy_eq hsplit' hgaplen chars
  rw [hcopy]
  simp only [List.append_assoc]

theorem delete_bytes (front mid back rest : List UInt8) :
    ∃ junk, junk.length = mid.length + rest.length ∧
      memmove (front ++ mid ++ back ++ rest) front.length (front.length + mid.length) back.length =
        some (front ++ back ++ junk) := by
  refine ⟨(mid ++ back).drop back.length ++ rest, ?_, ?_⟩
  · rw [List.length_append, List.length_drop, List.length_append]
    omega
  · have hold : ((mid ++ back).take back.length).length = back.length := by
      rw [List.length_take, List.length_append]
      omega
    have hdst : front ++ mid ++ back ++ rest =
        front ++ (mid ++ back).take back.length ++ ((mid ++ back).drop back.length ++ rest) := by
      rw [List.append_assoc front _ (_ ++ rest), ← List.append_assoc (List.take _ _),
        List.take_append_drop]
      simp only [List.append_assoc]
    have hmove := memmove_eq (p := front ++ mid) rfl hdst hold
    rwa [List.length_append] at hmove

end Bytes
