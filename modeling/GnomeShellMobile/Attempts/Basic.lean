import Mathlib.Data.List.Basic

/-!
# Attempts — computations that throw and leave something behind

An attempt on an object either returns or throws, and what was already changed when it threw stays.
A second way to stop, `forbidden`, marks a step that a stricter version of the same program
refuses. This module owns three judgements on attempts, each with its rules for sequences and loops:

* **`Ends h r P`**: `r` does not throw, and if it returns then `P` holds of the result; `Leaves r P`
  allows it to throw, and is about the object.
* **`Follows strict real`**: as long as nothing forbidden is met, both do the same.
* **`Prolonged r r'`**: `r'` returns what `r` returns, which may stop sooner.
-/

namespace Attempts

inductive Stop (σ : Type) where
  | thrown (left : σ)
  | forbidden
deriving DecidableEq

abbrev Attempt (σ : Type) := Except (Stop σ)

variable {σ τ α β : Type}

def within (put : σ → τ) : Attempt σ σ → Attempt τ τ
  | .ok a => .ok (put a)
  | .error (.thrown a) => .error (.thrown (put a))
  | .error .forbidden => .error .forbidden

theorem exists_of_within {put : σ → τ} {r : Attempt σ σ} {t : τ} (h : within put r = .ok t) :
    ∃ a, r = .ok a ∧ put a = t := by
  match r with
  | .ok a => exact ⟨a, rfl, Except.ok.inj h⟩

/-! ## What holds in the end -/

/-- `r` does not throw; it meets something forbidden only if `h` holds, and if it returns then `P`
holds of the result. -/
def Ends (h : Prop) (r : Attempt σ α) (P : α → Prop) : Prop :=
  match r with
  | .ok a => P a
  | .error (.thrown _) => False
  | .error .forbidden => h

section Ends

variable {h : Prop}
variable {r : Attempt σ α}

theorem Ends.mono {P Q : α → Prop} (hr : Ends h r P) (hpq : ∀ a, P a → Q a) : Ends h r Q := by
  match r with
  | .ok a => exact hpq a hr
  | .error .forbidden => exact hr

theorem Ends.weaken {h' : Prop} {P : α → Prop} (hr : Ends h r P) (hh : h → h') : Ends h' r P := by
  match r with
  | .ok a => exact hr
  | .error .forbidden => exact hh hr

theorem Ends.and {h' : Prop} {P Q : α → Prop} (hr : Ends h r P)
    (hr' : Ends h' r Q) : Ends (h ∧ h') r fun a => P a ∧ Q a := by
  match r with
  | .ok a => exact ⟨hr, hr'⟩
  | .error .forbidden => exact ⟨hr, hr'⟩

/-- **Sequence.** -/
theorem Ends.bind {f : α → Attempt σ β} {P : α → Prop} {Q : β → Prop}
    (hr : Ends h r P) (hf : ∀ a, P a → Ends h (f a) Q) : Ends h (r >>= f) Q := by
  match r with
  | .ok a => exact hf a hr
  | .error .forbidden => exact hr

/-- **Loop.** The invariant may speak of the elements that are still to come. Induction on the
list. -/
theorem Ends.foldlM {I : List β → α → Prop} {f : α → β → Attempt σ α} {xs : List β} {a : α}
    (ha : I xs a) (hf : ∀ x rest b, I (x :: rest) b → Ends h (f b x) (I rest)) :
    Ends h (xs.foldlM f a) (I []) := by
  induction xs generalizing a with
  | nil => exact ha
  | cons x rest ih =>
    rw [List.foldlM_cons]
    exact (hf x rest a ha).bind fun b hb => ih hb

theorem Ends.within {r : Attempt σ σ} {put : σ → τ} {P : σ → Prop} {Q : τ → Prop} (hr : Ends h r P)
    (hpq : ∀ a, P a → Q (put a)) : Ends h (within put r) Q := by
  match r with
  | .ok a => exact hpq a hr
  | .error .forbidden => exact hr

theorem Ends.returns {P : α → Prop} (hr : Ends h r P) (hnot : ¬ h) : ∃ a, r = .ok a ∧ P a := by
  match r with
  | .ok a => exact ⟨a, rfl, hr⟩
  | .error .forbidden => exact absurd hr hnot

/-- `P` holds of the object, whether the attempt returned or threw. -/
def Leaves (r : Attempt σ σ) (P : σ → Prop) : Prop :=
  match r with
  | .ok a => P a
  | .error (.thrown a) => P a
  | .error .forbidden => True

theorem Ends.leaves {r : Attempt σ σ} {P : σ → Prop} (hr : Ends h r P) : Leaves r P := by
  match r with
  | .ok a => exact hr
  | .error .forbidden => exact trivial

end Ends

/-! ## A stricter version -/

variable (r : Attempt σ α)

def Permitted : Prop :=
  match r with
  | .error .forbidden => False
  | _ => True

instance : Decidable (Permitted r) :=
  match r with
  | .ok _ => .isTrue trivial
  | .error (.thrown _) => .isTrue trivial
  | .error .forbidden => .isFalse id

def Follows (strict real : Attempt σ α) : Prop := strict = .error .forbidden ∨ strict = real

theorem Follows.refl : Follows r r := .inr rfl

theorem Follows.bind {r r' : Attempt σ α} {f f' : α → Attempt σ β} (h : Follows r r')
    (hf : ∀ a, Follows (f a) (f' a)) : Follows (r >>= f) (r' >>= f') := by
  obtain rfl | rfl := h
  · exact .inl rfl
  · match r with
    | .ok a => exact hf a
    | .error e => exact .inr rfl

theorem Follows.foldlM {f f' : α → β → Attempt σ α} (hf : ∀ a b, Follows (f a b) (f' a b))
    (xs : List β) (a : α) : Follows (xs.foldlM f a) (xs.foldlM f' a) := by
  induction xs generalizing a with
  | nil => exact .refl _
  | cons x rest ih =>
    rw [List.foldlM_cons, List.foldlM_cons]
    exact (hf a x).bind ih

theorem Follows.ite {p : Prop} [Decidable p] {r₁ r₂ r₁' r₂' : Attempt σ α}
    (h₁ : Follows r₁ r₁') (h₂ : Follows r₂ r₂') :
    Follows (if p then r₁ else r₂) (if p then r₁' else r₂') := by
  split
  · exact h₁
  · exact h₂

theorem Follows.within {r r' : Attempt σ σ} (put : σ → τ) (h : Follows r r') :
    Follows (within put r) (within put r') := by
  obtain rfl | rfl := h
  · exact .inl rfl
  · exact .refl _

theorem Follows.eq {strict real : Attempt σ α} (h : Follows strict real)
    (hpermitted : Permitted strict) : strict = real := by
  refine h.resolve_left ?_
  rintro rfl
  exact hpermitted

/-! ## More fuel -/

def Prolonged (r r' : Attempt σ α) : Prop := ∀ a, r = .ok a → r' = .ok a

theorem Prolonged.refl : Prolonged r r := fun _ h => h

theorem Prolonged.trans {r r' r'' : Attempt σ α} (h : Prolonged r r') (h' : Prolonged r' r'') :
    Prolonged r r'' :=
  fun a ha => h' a (h a ha)

theorem Prolonged.bind {r r' : Attempt σ α} {f f' : α → Attempt σ β} (h : Prolonged r r')
    (hf : ∀ a, Prolonged (f a) (f' a)) : Prolonged (r >>= f) (r' >>= f') := by
  intro b hb
  match r with
  | .ok a =>
    rw [h a rfl]
    exact hf a b hb

theorem Prolonged.foldlM {f f' : α → β → Attempt σ α} (hf : ∀ a b, Prolonged (f a b) (f' a b))
    (xs : List β) (a : α) : Prolonged (xs.foldlM f a) (xs.foldlM f' a) := by
  induction xs generalizing a with
  | nil => exact .refl _
  | cons x rest ih =>
    rw [List.foldlM_cons, List.foldlM_cons]
    exact (hf a x).bind ih

theorem Prolonged.ite {p : Prop} [Decidable p] {r₁ r₂ r₁' r₂' : Attempt σ α} (h₁ : Prolonged r₁ r₁')
    (h₂ : Prolonged r₂ r₂') : Prolonged (if p then r₁ else r₂) (if p then r₁' else r₂') := by
  split
  · exact h₁
  · exact h₂

end Attempts
