import GnomeShellMobile.ModalStack.Stack

/-!
# ModalStack — what a stack of grabs is for

Each grab is a layer with the key focus and the action mode it has while it is on top; below all of
them is what there was before the first grab. A focus change is one of the layer on top, and a grab
that is popped takes its own layer with it, wherever that is.

* `Layers`: the layers, with one operation for each call.
* `run_pop`: a grab that is popped leaves everything as if it had never been pushed. What happened
  while it was on top is gone with it, and the rest is what there would be without it.
-/

namespace ModalStack

structure Layer (α : Type) where
  grab : ℕ
  actor : α
  keyFocus : Option α
  actionMode : ℕ
  deriving DecidableEq

structure Layers (α : Type) where
  base : Option α
  layers : List (Layer α)
  deriving DecidableEq

def forget {α : Type} [DecidableEq α] (x : α) (keyFocus : Option α) : Option α :=
  if keyFocus = some x then none else keyFocus

namespace Layers

variable {α : Type}

def keyFocus (l : Layers α) : Option α := (l.layers.getLast?.map Layer.keyFocus).getD l.base

def actionMode (l : Layers α) : ℕ := (l.layers.getLast?.map Layer.actionMode).getD modeNormal

variable (l : Layers α)

def push (layer : Layer α) : Layers α := { l with layers := l.layers ++ [layer] }

def pop (grab : ℕ) : Layers α :=
  { l with layers := l.layers.filter (·.grab ≠ grab) }

def setKeyFocus (keyFocus : Option α) : Layers α :=
  match l.layers.getLast? with
  | none => { l with base := keyFocus }
  | some layer => { l with layers := l.layers.dropLast ++ [{ layer with keyFocus := keyFocus }] }

variable [DecidableEq α]

def destroy (l : Layers α) (x : α) : Layers α where
  base := forget x l.base
  layers := (l.layers.filter (·.actor ≠ x)).map fun layer =>
    { layer with keyFocus := forget x layer.keyFocus }

/-- The layer that `pushModal` makes. -/
def layer (stage actor : α) (grab : ℕ) (actionMode : Option ℕ) : Layer α :=
  ⟨grab, actor, if actor = stage then none else some actor, actionMode.getD modeNone⟩

def step (stage : α) (l : Layers α) : Op α → Layers α
  | .pushModal actor grab actionMode => l.push (layer stage actor grab actionMode)
  | .popModal grab => l.pop grab
  | .setKeyFocus keyFocus => l.setKeyFocus keyFocus
  | .destroy x => l.destroy x

def run (stage : α) (ops : List (Op α)) (l : Layers α) : Layers α := ops.foldl (step stage) l

/-! ## As if it had never been pushed -/

variable {l : Layers α} {grab grab' : ℕ} {x : α} {keyFocus : Option α}

omit [DecidableEq α] in
theorem pop_push_self {new : Layer α} (h : ∀ layer ∈ l.layers, layer.grab ≠ new.grab) :
    (l.push new).pop new.grab = l := by
  have hold : l.layers.filter (·.grab ≠ new.grab) = l.layers :=
    List.filter_eq_self.mpr fun layer hlayer => decide_eq_true (h layer hlayer)
  rw [push, pop, List.filter_append, hold, List.filter_singleton]
  simp

omit [DecidableEq α] in
theorem pop_push {new : Layer α} (h : new.grab ≠ grab) :
    (l.push new).pop grab = (l.pop grab).push new := by
  rw [push, pop, List.filter_append, List.filter_singleton, decide_eq_true h]
  rfl

omit [DecidableEq α] in
theorem pop_pop : (l.pop grab').pop grab = (l.pop grab).pop grab' := by
  rw [pop, pop, pop, pop, List.filter_filter, List.filter_filter]
  simp only [Bool.and_comm]

theorem pop_destroy : (l.destroy x).pop grab = (l.pop grab).destroy x := by
  rw [destroy, pop, pop, destroy, List.filter_map, List.filter_filter, List.filter_filter]
  congr 2
  apply List.filter_congr
  intro layer _
  exact Bool.and_comm ..

omit [DecidableEq α] in
theorem pop_setKeyFocus_top (h : l.layers.getLast?.map Layer.grab = some grab) :
    (l.setKeyFocus keyFocus).pop grab = l.pop grab := by
  obtain ⟨top, htop, hgrab⟩ := Option.map_eq_some_iff.mp h
  have hlayers : l.layers = l.layers.dropLast ++ [top] := (List.dropLast_append_getLast? top htop).symm
  rw [setKeyFocus, htop]
  dsimp only
  rw [pop, pop]
  dsimp only
  rw [List.filter_append]
  conv_rhs => rw [hlayers, List.filter_append]
  simp [hgrab]

omit [DecidableEq α] in
theorem pop_setKeyFocus (h : l.layers.getLast?.map Layer.grab ≠ some grab) :
    (l.setKeyFocus keyFocus).pop grab = (l.pop grab).setKeyFocus keyFocus := by
  cases htop : l.layers.getLast? with
  | none =>
    have hnil : l.layers = [] := List.getLast?_eq_none_iff.mp htop
    rw [setKeyFocus, htop, pop, pop, setKeyFocus]
    simp [hnil]
  | some top =>
    have hgrab : top.grab ≠ grab := fun heq => h (by rw [htop, Option.map_some, heq])
    have hlayers : l.layers = l.layers.dropLast ++ [top] :=
      (List.dropLast_append_getLast? top htop).symm
    have hpop : (l.pop grab).layers = l.layers.dropLast.filter (·.grab ≠ grab) ++ [top] := by
      rw [pop]
      dsimp only
      conv_lhs => rw [hlayers, List.filter_append]
      simp [hgrab]
    rw [setKeyFocus, htop]
    dsimp only
    rw [setKeyFocus, hpop, List.getLast?_concat]
    dsimp only
    rw [List.dropLast_concat, pop, pop]
    dsimp only
    rw [List.filter_append]
    simp [hgrab]

def Op.isUnder (l : Layers α) (grab : ℕ) : Op α → Bool
  | .setKeyFocus _ => l.layers.getLast?.map Layer.grab = some grab
  | _ => false

def without (stage : α) (grab : ℕ) : Layers α → List (Op α) → List (Op α)
  | _, [] => []
  | l, op :: ops =>
    if Op.isUnder l grab op then without stage grab (l.step stage op) ops
    else op :: without stage grab (l.step stage op) ops

def Op.uses (grab : ℕ) : Op α → Prop
  | .pushModal _ grab' _ => grab' = grab
  | .popModal grab' => grab' = grab
  | _ => False

/-- **Step lemma.** The layer of the grab is not looked at by other calls. -/
theorem step_pop (stage : α) {op : Op α} (h : ¬ Op.uses grab op) : (l.step stage op).pop grab =
      if Op.isUnder l grab op then l.pop grab else (l.pop grab).step stage op := by
  cases op with
  | pushModal actor grab' actionMode => exact pop_push h
  | popModal grab' => exact pop_pop
  | setKeyFocus keyFocus =>
    split
    · rename_i htop
      exact pop_setKeyFocus_top (of_decide_eq_true htop)
    · rename_i htop
      exact pop_setKeyFocus fun heq => htop (decide_eq_true heq)
  | destroy x => exact pop_destroy

/-- **As if it had never been pushed.** Whatever is called between the push and the pop of a grab,
what is left is what these calls do without it. Induction on the calls. -/
theorem run_pop (stage : α) (ops : List (Op α)) (l : Layers α) (h : ∀ op ∈ ops, ¬ Op.uses grab op) :
    (l.run stage ops).pop grab = (l.pop grab).run stage (without stage grab l ops) := by
  induction ops generalizing l with
  | nil => rfl
  | cons op ops ih =>
    obtain ⟨hop, hops⟩ := List.forall_mem_cons.mp h
    have hrest := ih (l.step stage op) hops
    rw [step_pop stage hop] at hrest
    rw [run, List.foldl_cons, without]
    refine Eq.trans hrest ?_
    split
    · rfl
    · rw [run, run, List.foldl_cons]

end Layers

end ModalStack
