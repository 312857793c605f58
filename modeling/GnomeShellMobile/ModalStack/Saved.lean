import GnomeShellMobile.ModalStack.Layers
import Mathlib.Data.List.TakeWhile

/-!
# ModalStack — the layers that the stack stands for

A record saves the focus and the mode of the layer below its own, and the top layer has those of
the stage. `State.layers` reads the layers off the stack; what a call does to the records is what it
is to do to the layers (`layers_pushModal`, `layers_setKeyFocus`, `layers_popModal`), but for
`popModal` only if all the records above have saved the same (`Uniform`).
-/

namespace ModalStack

variable {α : Type}

def Record.saved (r : Record α) : Option α × ℕ := (r.prevFocus, r.actionMode)

def Uniform (rs : List (Record α)) : Prop := rs.Pairwise fun r r' => r.saved = r'.saved

instance [DecidableEq α] (rs : List (Record α)) : Decidable (Uniform rs) :=
  inferInstanceAs (Decidable (List.Pairwise _ rs))

/-- What the layer below the records has, where `top` is what the top one has. -/
def under (top : Option α × ℕ) : List (Record α) → Option α × ℕ
  | [] => top
  | r :: _ => r.saved

def layersOf (top : Option α × ℕ) : List (Record α) → List (Layer α)
  | [] => []
  | r :: rs => ⟨r.grab, r.actor, (under top rs).1, (under top rs).2⟩ :: layersOf top rs

theorem uniform_cons {r : Record α} {rs : List (Record α)} :
    Uniform (r :: rs) ↔ (∀ r' ∈ rs, r.saved = r'.saved) ∧ Uniform rs :=
  List.pairwise_cons

namespace State

def top (s : State α) : Option α × ℕ := (s.keyFocus, s.actionMode)

def layers (s : State α) : Layers α := ⟨(under s.top s.stack).1, layersOf s.top s.stack⟩

end State

variable {top : Option α × ℕ} {xs ys above : List (Record α)} {r : Record α} {s : State α}
  {grab : ℕ}

theorem under_append : under top (xs ++ ys) = under (under top ys) xs := by
  cases xs <;> rfl

/-- Layers on top of others. Induction on the lower records. -/
theorem layersOf_append :
    layersOf top (xs ++ ys) = layersOf (under top ys) xs ++ layersOf top ys := by
  induction xs with
  | nil => rfl
  | cons r xs ih =>
    rw [List.cons_append, layersOf, ih, under_append, layersOf, List.cons_append]

theorem map_grab_layersOf : (layersOf top xs).map Layer.grab = xs.map Record.grab := by
  induction xs with
  | nil => rfl
  | cons r xs ih => rw [layersOf, List.map_cons, List.map_cons, ih]

/-! ## Push and focus -/

theorem under_concat : under top (xs ++ [r]) = under r.saved xs := by
  rw [under_append]
  rfl

theorem layersOf_concat :
    layersOf top (xs ++ [r]) = layersOf r.saved xs ++ [⟨r.grab, r.actor, top.1, top.2⟩] := by
  rw [layersOf_append]
  rfl

theorem State.keyFocus_layers (s : State α) : s.layers.keyFocus = s.keyFocus := by
  rw [Layers.keyFocus, State.layers]
  dsimp only
  rcases List.eq_nil_or_concat s.stack with hnil | ⟨init, r, hconcat⟩
  · rw [hnil]
    rfl
  · rw [hconcat, List.concat_eq_append, layersOf_concat, List.getLast?_concat]
    rfl

theorem State.actionMode_layers (h : (under s.top s.stack).2 = modeNormal) :
    s.layers.actionMode = s.actionMode := by
  rw [Layers.actionMode, State.layers]
  dsimp only
  rcases List.eq_nil_or_concat s.stack with hnil | ⟨init, r, hconcat⟩
  · rw [hnil] at h ⊢
    exact h.symm
  · rw [hconcat, List.concat_eq_append, layersOf_concat, List.getLast?_concat]
    rfl

theorem State.layers_setKeyFocus (s : State α) (keyFocus : Option α) :
    (s.setKeyFocus keyFocus).layers = s.layers.setKeyFocus keyFocus := by
  rw [Layers.setKeyFocus, State.layers, State.layers]
  dsimp only
  rcases List.eq_nil_or_concat s.stack with hnil | ⟨init, r, hconcat⟩
  · have hnil' : (s.setKeyFocus keyFocus).stack = [] := hnil
    rw [hnil, hnil']
    rfl
  · rw [List.concat_eq_append] at hconcat
    have hconcat' : (s.setKeyFocus keyFocus).stack = init ++ [r] := hconcat
    rw [hconcat, hconcat', layersOf_concat, layersOf_concat, under_concat, under_concat,
      List.getLast?_concat]
    dsimp only
    rw [List.dropLast_concat]
    rfl

theorem State.layers_pushModal [DecidableEq α] (stage : α) (s : State α) (actor : α) (grab : ℕ)
    (actionMode : Option ℕ) : (s.pushModal stage actor grab actionMode).layers =
      s.layers.push (Layers.layer stage actor grab actionMode) := by
  obtain ⟨destroyId, prevFocusDestroyId, hstack⟩ : ∃ destroyId prevFocusDestroyId,
      (s.pushModal stage actor grab actionMode).stack =
        s.stack ++ [⟨actor, grab, destroyId, s.keyFocus, prevFocusDestroyId, s.actionMode⟩] :=
    ⟨_, _, rfl⟩
  have htop : (s.pushModal stage actor grab actionMode).top =
      (if actor = stage then none else some actor, actionMode.getD modeNone) := rfl
  rw [State.layers, hstack, htop, under_concat, layersOf_concat]
  rfl

/-! ## Pop -/

/-- Shifting the focus chain up is right for records that have saved the same, and only then.
Induction on the records. -/
theorem layersOf_shiftUp (below : Record α) :
    layersOf top (State.shiftUp below above) = layersOf top above ↔ Uniform above := by
  induction above generalizing below with
  | nil => exact iff_of_true rfl .nil
  | cons r rs ih =>
    rw [State.shiftUp, layersOf, layersOf, List.cons.injEq, ih, Layer.mk.injEq, uniform_cons]
    apply and_congr_left
    intro hrs
    cases rs with
    | nil => exact iff_of_true ⟨rfl, rfl, rfl, rfl⟩ fun _ h => absurd h List.not_mem_nil
    | cons r' rs =>
      -- the records above have saved what the first of them has
      have hall : (∀ r'' ∈ r' :: rs, r.saved = r''.saved) ↔ r.saved = r'.saved := by
        constructor
        · exact fun h => h r' List.mem_cons_self
        · intro h r'' hr''
          rcases List.mem_cons.mp hr'' with rfl | hr''
          · exact h
          · exact h.trans ((uniform_cons.mp hrs).1 r'' hr'')
      rw [hall, State.shiftUp, under, under, Prod.ext_iff]
      exact ⟨fun h => ⟨h.2.2.1, h.2.2.2⟩, fun h => ⟨rfl, rfl, h.1, h.2⟩⟩

theorem State.fromGrab_eq (h : s.fromGrab grab = r :: above) :
    s.stack = s.belowGrab grab ++ r :: above ∧ r.grab = grab ∧
      ∀ r' ∈ s.belowGrab grab, r'.grab ≠ grab := by
  refine ⟨?_, ?_, ?_⟩
  · rw [← h]
    exact List.takeWhile_append_dropWhile.symm
  · have hhead := List.head?_dropWhile_not (fun r : Record α => decide (r.grab ≠ grab)) s.stack
    rw [show s.stack.dropWhile _ = r :: above from h] at hhead
    simpa using hhead
  · intro r' hr'
    have hne := List.mem_takeWhile_imp (p := fun r : Record α => decide (r.grab ≠ grab)) hr'
    exact of_decide_eq_true hne

theorem filter_layersOf (h : ∀ r ∈ xs, r.grab ≠ grab) :
    (layersOf top xs).filter (·.grab ≠ grab) = layersOf top xs := by
  rw [List.filter_eq_self]
  intro layer hlayer
  apply decide_eq_true
  have hmem := List.mem_map_of_mem (f := Layer.grab) hlayer
  rw [map_grab_layersOf] at hmem
  obtain ⟨r, hr, heq⟩ := List.mem_map.mp hmem
  rw [← heq]
  exact h r hr

theorem grab_ne_of_mem (hgrabs : ((xs ++ r :: above).map Record.grab).Nodup) :
    ∀ r' ∈ above, r'.grab ≠ r.grab := by
  intro r' hr' heq
  rw [List.map_append, List.map_cons, List.nodup_append] at hgrabs
  exact (List.nodup_cons.mp hgrabs.2.1).1 (heq ▸ List.mem_map_of_mem hr')

section

variable [DecidableEq α]

/-- **What `popModal` does** with a grab on the stack. -/
theorem State.popModal_eq (h : s.fromGrab grab = r :: above) : (s.popModal grab).1 =
      { emitters := disconnectPrevFocus (s.emitters.disconnect r.actor r.destroyId)
          ((r :: above).getLast (List.cons_ne_nil r above))
        stack := s.belowGrab grab ++ shiftUp r above
        modalCount := s.modalCount - 1
        actionMode :=
          if 0 < s.modalCount - 1 then if above = [] then r.actionMode else s.actionMode
          else modeNormal
        keyFocus := if above = [] then r.prevFocus else s.keyFocus
        unredirectDisabled :=
          if 0 < s.modalCount - 1 then s.unredirectDisabled else s.unredirectDisabled - 1 } := by
  rw [popModal, h]
  dsimp only
  rcases List.eq_nil_or_concat above with rfl | ⟨init, t, rfl⟩
  · rw [List.getLast?_nil]
    by_cases hcount : 0 < s.modalCount - 1
    · simp only [if_pos hcount, shiftUp, List.getLast_singleton, List.append_nil, if_true]
    · simp only [if_neg hcount, shiftUp, List.getLast_singleton, List.append_nil, if_true]
  · rw [List.concat_eq_append, List.getLast?_concat]
    have hlast : (r :: (init ++ [t])).getLast (List.cons_ne_nil _ _) = t := by
      rw [List.getLast_cons (List.concat_ne_nil t init), List.getLast_concat]
    rw [hlast]
    have hne : init ++ [t] ≠ [] := List.concat_ne_nil t init
    by_cases hcount : 0 < s.modalCount - 1
    · simp only [if_pos hcount, if_neg hne]
    · simp only [if_neg hcount, if_neg hne]

/-- **The grab's layer is taken out** exactly if the records above have saved the same. -/
theorem State.layers_popModal (h : s.fromGrab grab = r :: above)
    (hgrabs : (s.stack.map Record.grab).Nodup) (hcount : s.modalCount = s.stack.length)
    (hbottom : (under s.top s.stack).2 = modeNormal) :
    (s.popModal grab).1.layers = s.layers.pop grab ↔ Uniform above := by
  obtain ⟨hstack, hr, hbelow⟩ := fromGrab_eq h
  have heq := popModal_eq h
  generalize s.belowGrab grab = below at hstack hbelow heq
  have habove : ∀ r' ∈ above, r'.grab ≠ grab := by
    rw [hstack] at hgrabs
    exact hr ▸ grab_ne_of_mem hgrabs
  have hpop : s.layers.pop grab =
      ⟨(under r.saved below).1, layersOf r.saved below ++ layersOf s.top above⟩ := by
    rw [Layers.pop, State.layers, hstack]
    dsimp only
    rw [layersOf_append, under_append, layersOf, List.filter_append, filter_layersOf hbelow,
      List.filter_cons, if_neg (by simp [hr]), filter_layersOf habove]
    rfl
  rw [hpop, heq, State.layers]
  dsimp only [State.top]
  cases above with
  | nil =>
    -- the mode that is restored is `NORMAL` at the bottom
    have hmode : (if 0 < s.modalCount - 1 then r.actionMode else modeNormal) = r.actionMode := by
      split
      · rfl
      · have hlength : below = [] := by
          rw [hcount, hstack, List.length_append, List.length_singleton] at *
          apply List.eq_nil_of_length_eq_zero
          omega
        rw [hstack, hlength] at hbottom
        exact hbottom.symm
    rw [if_pos rfl, if_pos rfl, hmode, shiftUp, List.append_nil]
    refine iff_of_true ?_ .nil
    rw [layersOf, List.append_nil]
    rfl
  | cons r' rs =>
    have hpos : 0 < s.modalCount - 1 := by
      rw [hcount, hstack, List.length_append, List.length_cons, List.length_cons]
      omega
    have hne : r' :: rs ≠ [] := List.cons_ne_nil r' rs
    rw [if_neg hne, if_neg hne, if_pos hpos, under_append, layersOf_append, ← layersOf_shiftUp r,
      Layers.mk.injEq]
    have hunder : under (s.keyFocus, s.actionMode) (shiftUp r (r' :: rs)) = r.saved := rfl
    rw [hunder, List.append_right_inj, and_iff_right rfl]

end

end ModalStack
