import Mathlib.Algebra.GroupWithZero.Nat

/-!
# Bytes — machine integers in memory

A machine integer of `k` bytes is copied into memory with its least significant byte first.
`toBytes` writes one and `ofBytes` reads one; `ofBytes_toBytes` is the round trip, and the lemmas
on `take` and `drop` find it again at the front of a longer memory.
-/

namespace Bytes

/-- The `k` lowest bytes of `n`, the lowest one first. -/
def toBytes : ℕ → ℕ → List UInt8
  | 0, _ => []
  | k + 1, n => UInt8.ofNat n :: toBytes k (n / 256)

def ofBytes : List UInt8 → ℕ
  | [] => 0
  | b :: bs => b.toNat + 256 * ofBytes bs

@[simp] theorem length_toBytes (k n : ℕ) : (toBytes k n).length = k := by
  induction k generalizing n with
  | zero => rfl
  | succ k ih => rw [toBytes, List.length_cons, ih]

/-- What was written is read. Induction on the number of bytes. -/
theorem ofBytes_toBytes (k n : ℕ) (h : n < 256 ^ k) : ofBytes (toBytes k n) = n := by
  induction k generalizing n with
  | zero =>
    rw [Nat.pow_zero] at h
    show 0 = n
    omega
  | succ k ih =>
    rw [Nat.pow_succ] at h
    have hrest : n / 256 < 256 ^ k := by omega
    rw [toBytes, ofBytes, ih _ hrest, UInt8.toNat_ofNat']
    omega

theorem take_toBytes (k n : ℕ) (rest : List UInt8) : (toBytes k n ++ rest).take k = toBytes k n :=
  List.take_left' (length_toBytes k n)

theorem drop_toBytes (k n : ℕ) (rest : List UInt8) : (toBytes k n ++ rest).drop k = rest :=
  List.drop_left' (length_toBytes k n)

theorem ofBytes_take (k n : ℕ) (rest : List UInt8) (h : n < 256 ^ k) :
    ofBytes ((toBytes k n ++ rest).take k) = n := by
  rw [take_toBytes, ofBytes_toBytes k n h]

end Bytes
