import GnomeShellMobile.Runs.Basic
import Mathlib.Algebra.BigOperators.Group.List.Basic
import Mathlib.Data.List.Range
import Mathlib.Data.List.Perm.Basic

/-!
# GrabHelper — grabs on a stack

`GrabHelper` of `js/ui/grabHelper.js`: the stack of grabs, and the modal grab that they share.

* `State`: the fields of a helper, the calls of `ungrab` that wait for a callback, and what was
  popped and called so far.
* `grab`, `ungrab`, `popGrabs`. A callback may call them again: it runs from one event to another.
* `Inv`: what holds also while callbacks run; `es` are the entries that are still to be popped.
* `run_grabs_counted`: what holds when the outermost call has returned.

The key focus is left out: it is only moved at the end of a call, and what that calls is the next
event.
-/

namespace GrabHelper

structure Entry where
  id : ℕ
  actor : Option ℕ
  onUngrab : Bool
deriving DecidableEq

structure State where
  grabStack : List Entry
  modalCount : ℤ
  stageGrabs : ℤ
  /-- The calls of `ungrab` in which a callback runs, from the innermost one: its entry, and those
  to be popped after it. -/
  running : List (List Entry)
  created : ℕ
  called : List ℕ
  /-- What each `ungrab` took from the stack, from the top. -/
  popped : List (List Entry)

def State.new : State where
  grabStack := []
  modalCount := 0
  stageGrabs := 0
  running := []
  created := 0
  called := []
  popped := []

namespace State

variable (s : State)

variable (actor : Option ℕ)

def findStackIndex : Option ℕ :=
  match actor with
  | none => none
  | some a => s.grabStack.findIdx? (·.actor = some a)

def isActorGrabbed : Bool := (s.findStackIndex actor).isSome

/-- `_takeModalGrab`; `granted` says whether the first grab gets the whole seat. -/
def takeModalGrab (granted : Bool) : State × Bool :=
  if s.modalCount = 0 then
    let s := { s with stageGrabs := s.stageGrabs + 1 }
    if granted then ({ s with modalCount := s.modalCount + 1 }, true)
    else ({ s with stageGrabs := s.stageGrabs - 1 }, false)
  else ({ s with modalCount := s.modalCount + 1 }, true)

def releaseModalGrab : State :=
  let s := { s with modalCount := s.modalCount - 1 }
  if 0 < s.modalCount then s else { s with stageGrabs := s.stageGrabs - 1 }

def grab (onUngrab granted : Bool) : State :=
  if s.isActorGrabbed actor then s
  else
    match s.takeModalGrab granted with
    | (s, false) => s
    | (s, true) =>
      { s with
        grabStack := s.grabStack ++ [⟨s.created, actor, onUngrab⟩]
        created := s.created + 1 }

/-- The loop of `ungrab`: it stops where a callback is called. -/
def popGrabs : State → List Entry → State
  | s, [] => s
  | s, e :: es =>
    if e.onUngrab then { s with called := s.called ++ [e.id], running := (e :: es) :: s.running }
    else popGrabs s.releaseModalGrab es

/-- `ungrab`; the actor is that of the current grab if none is given. -/
def ungrab (actor : Option (Option ℕ)) : State :=
  match s.findStackIndex (actor.getD (s.grabStack.getLast?.bind (·.actor))) with
  | none => s
  | some i =>
    let poppedGrabs := s.grabStack.drop i
    { s with
      grabStack := s.grabStack.take i
      popped := s.popped ++ [poppedGrabs.reverse] }.popGrabs poppedGrabs.reverse

end State

inductive Event where
  | grab (actor : Option ℕ) (onUngrab granted : Bool)
  | ungrab (actor : Option (Option ℕ))
  | returns

def step (s : State) : Event → Option State
  | .grab actor onUngrab granted => some (s.grab actor onUngrab granted)
  | .ungrab actor => some (s.ungrab actor)
  | .returns =>
    match s.running with
    | (_ :: es) :: running => some ({ s with running := running }.releaseModalGrab.popGrabs es)
    | _ => none

def callbacks (es : List Entry) : List ℕ := (es.filter (·.onUngrab)).map (·.id)

structure Law (s : State) : Prop where
  count : s.modalCount = s.grabStack.length
  held : s.stageGrabs = if 0 < s.modalCount then 1 else 0
  entries : ((s.popped.flatten ++ s.grabStack).map (·.id)).Perm (List.range s.created)
  once : s.called.Nodup ∧ s.called.Perm (callbacks s.popped.flatten)
  order : ∀ es ∈ s.popped, (callbacks es).Sublist s.called

variable {s t : State} {es : List Entry}

/-! ## The invariant -/

section Inv

/-- `es` are still to be popped, after `due` releases. -/
structure Inv (s : State) (due : ℕ) (es : List Entry) : Prop where
  count : s.modalCount = s.grabStack.length + s.running.flatten.length + es.length + due
  held : s.stageGrabs = if 0 < s.modalCount then 1 else 0
  entries : ((s.popped.flatten ++ s.grabStack).map (·.id)).Perm (List.range s.created)
  calls : (s.called ++ (callbacks es ++ s.running.flatMap fun f => callbacks f.tail)).Perm
    (callbacks s.popped.flatten)
  order : ∀ l ∈ s.popped, (callbacks l).Sublist s.called ∨
    ∃ rest ∈ es :: s.running.map List.tail, ∃ l', callbacks l = l' ++ callbacks rest ∧
      l'.Sublist s.called

theorem Inv.new : Inv State.new 0 [] where
  count := rfl
  held := rfl
  entries := List.Perm.refl _
  calls := List.Perm.refl _
  order l hl := by cases hl

theorem callbacks_append (l l' : List Entry) : callbacks (l ++ l') = callbacks l ++ callbacks l' := by
  rw [callbacks, List.filter_append, List.map_append]
  rfl

theorem callbacks_cons_of_onUngrab {e : Entry} (h : e.onUngrab = true) (es : List Entry) :
    callbacks (e :: es) = e.id :: callbacks es := by
  rw [callbacks, List.filter_cons, if_pos h]
  rfl

theorem callbacks_cons_of_not {e : Entry} (h : e.onUngrab = false) (es : List Entry) :
    callbacks (e :: es) = callbacks es := by
  rw [callbacks, List.filter_cons, h]
  rfl

theorem Inv.releaseModalGrab (h : Inv s 1 es) : Inv s.releaseModalGrab 0 es := by
  have hcount := h.count
  have hheld := h.held
  rw [if_pos (by omega)] at hheld
  rw [State.releaseModalGrab]
  dsimp only
  split
  · next hpos =>
    refine ⟨?_, ?_, h.entries, h.calls, h.order⟩
    · dsimp only
      omega
    · rw [if_pos hpos]
      exact hheld
  · next hpos =>
    refine ⟨?_, ?_, h.entries, h.calls, h.order⟩
    · dsimp only
      omega
    · rw [if_neg hpos]
      show s.stageGrabs - 1 = 0
      omega

theorem Inv.skip {e : Entry} (h : Inv s 0 (e :: es)) (hno : e.onUngrab = false) : Inv s 1 es where
  __ := h
  count := by
    have hcount := h.count
    rw [List.length_cons] at hcount
    omega
  calls := by
    have hcalls := h.calls
    rwa [callbacks_cons_of_not hno] at hcalls
  order l hl := by
    obtain hsub | ⟨rest, hrest, l', heq, hsub⟩ := h.order l hl
    · exact Or.inl hsub
    · right
      obtain rfl | hrest := List.mem_cons.mp hrest
      · exact ⟨es, List.mem_cons_self, l', by rw [heq, callbacks_cons_of_not hno], hsub⟩
      · exact ⟨rest, List.mem_cons_of_mem _ hrest, l', heq, hsub⟩

theorem Inv.call {e : Entry} (h : Inv s 0 (e :: es)) (hcallback : e.onUngrab = true) :
    Inv { s with called := s.called ++ [e.id], running := (e :: es) :: s.running } 0 [] where
  __ := h
  count := by
    have hcount := h.count
    rw [List.length_cons] at hcount
    simp only [List.flatten_cons, List.length_append, List.length_cons, List.length_nil]
    omega
  calls := by
    have hcalls := h.calls
    rw [callbacks_cons_of_onUngrab hcallback] at hcalls
    simpa [callbacks] using hcalls
  order l hl := by
    obtain hsub | ⟨rest, hrest, l', heq, hsub⟩ := h.order l hl
    · exact Or.inl (hsub.trans (List.sublist_append_left _ _))
    · right
      obtain rfl | hrest := List.mem_cons.mp hrest
      · refine ⟨es, by simp, l' ++ [e.id], ?_, hsub.append (List.Sublist.refl _)⟩
        rw [heq, callbacks_cons_of_onUngrab hcallback, List.append_assoc]
        rfl
      · refine ⟨rest, ?_, l', heq, hsub.trans (List.sublist_append_left _ _)⟩
        exact List.mem_cons_of_mem _ (List.mem_cons_of_mem _ hrest)

/-- Induction on the entries that are left. -/
theorem Inv.popGrabs (h : Inv s 0 es) : Inv (s.popGrabs es) 0 [] := by
  induction es generalizing s with
  | nil => exact h
  | cons e es ih =>
    rw [State.popGrabs]
    cases hcallback : e.onUngrab with
    | true =>
      rw [if_pos rfl]
      exact h.call hcallback
    | false =>
      rw [if_neg Bool.false_ne_true]
      exact ih (h.skip hcallback).releaseModalGrab

theorem Inv.returns {e : Entry} {running : List (List Entry)} (h : Inv s 0 [])
    (hrunning : s.running = (e :: es) :: running) : Inv { s with running := running } 1 es where
  __ := h
  count := by
    have hcount := h.count
    rw [hrunning] at hcount
    simp only [List.flatten_cons, List.length_append, List.length_cons, List.length_nil] at hcount
    dsimp only
    omega
  calls := by
    have hcalls := h.calls
    rw [hrunning] at hcalls
    exact hcalls
  order l hl := by
    obtain hsub | ⟨rest, hrest, l', heq, hsub⟩ := h.order l hl
    · exact Or.inl hsub
    · rw [hrunning, List.map_cons, List.tail_cons] at hrest
      obtain rfl | hrest := List.mem_cons.mp hrest
      · left
        rw [heq]
        simpa [callbacks] using hsub
      · exact Or.inr ⟨rest, hrest, l', heq, hsub⟩

end Inv

/-! ## Calls -/

section Calls

section

variable (h : Inv s 0 [])
include h

theorem Inv.push (stageGrabs : ℤ) (actor : Option ℕ) (onUngrab : Bool)
    (hheld : stageGrabs = 1) : Inv { s with
      modalCount := s.modalCount + 1
      stageGrabs := stageGrabs
      grabStack := s.grabStack ++ [⟨s.created, actor, onUngrab⟩]
      created := s.created + 1 } 0 [] where
  __ := h
  count := by
    have hcount := h.count
    simp only [List.length_append, List.length_cons, List.length_nil] at hcount ⊢
    omega
  held := by
    have hcount := h.count
    dsimp only
    rw [if_pos (by omega)]
    exact hheld
  entries := by
    rw [List.range_succ, ← List.append_assoc, List.map_append]
    exact h.entries.append_right _

theorem Inv.grab (actor : Option ℕ) (onUngrab granted : Bool) :
    Inv (s.grab actor onUngrab granted) 0 [] := by
  have hheld := h.held
  have hcount := h.count
  rw [State.grab, State.takeModalGrab]
  split
  · exact h
  · by_cases hzero : s.modalCount = 0
    · rw [if_pos hzero]
      rw [if_neg (by omega)] at hheld
      cases granted with
      | true => exact h.push (s.stageGrabs + 1) actor onUngrab (by omega)
      | false =>
        -- the grab is given back at once
        have hsame : s.stageGrabs + 1 - 1 = s.stageGrabs := by omega
        dsimp only
        rw [if_neg Bool.false_ne_true, hsame]
        exact h
    · rw [if_neg hzero]
      rw [if_pos (by omega)] at hheld
      exact h.push s.stageGrabs actor onUngrab hheld

theorem Inv.ungrab (actor : Option (Option ℕ)) : Inv (s.ungrab actor) 0 [] := by
  rw [State.ungrab]
  split
  · exact h
  · next i hi =>
    apply Inv.popGrabs
    refine ⟨?_, h.held, ?_, ?_, fun l hl => ?_⟩
    · have hcount := h.count
      simp only [List.length_take, List.length_reverse, List.length_drop, List.length_nil]
        at hcount ⊢
      omega
    · refine List.Perm.trans (List.Perm.map _ ?_) h.entries
      rw [List.flatten_append, List.flatten_singleton, List.append_assoc]
      apply List.Perm.append_left
      have hswap : ((s.grabStack.drop i).reverse ++ s.grabStack.take i).Perm
          (s.grabStack.take i ++ s.grabStack.drop i) :=
        ((List.reverse_perm _).append_right _).trans List.perm_append_comm
      rwa [List.take_append_drop] at hswap
    · rw [List.flatten_append, List.flatten_singleton, callbacks_append]
      refine List.Perm.trans ?_ (h.calls.append_right _)
      rw [List.append_assoc]
      apply List.Perm.append_left
      exact List.perm_append_comm
    · obtain hold | hnew := List.mem_append.mp hl
      · obtain hsub | ⟨rest, hrest, l', heq, hsub⟩ := h.order l hold
        · exact Or.inl hsub
        · obtain rfl | hrest := List.mem_cons.mp hrest
          · left
            rw [heq]
            simpa [callbacks] using hsub
          · exact Or.inr ⟨rest, List.mem_cons_of_mem _ hrest, l', heq, hsub⟩
      · right
        rw [List.mem_singleton.mp hnew]
        exact ⟨_, List.mem_cons_self, [], rfl, List.nil_sublist _⟩

theorem Inv.step {e : Event} (hstep : GrabHelper.step s e = some t) :
    Inv t 0 [] := by
  cases e with
  | grab actor onUngrab granted =>
    cases hstep
    exact h.grab actor onUngrab granted
  | ungrab actor =>
    cases hstep
    exact h.ungrab actor
  | returns =>
    rw [GrabHelper.step] at hstep
    split at hstep
    · next e es running hrunning =>
      cases hstep
      exact (h.returns hrunning).releaseModalGrab.popGrabs
    · cases hstep

theorem Inv.law (hrunning : s.running = []) : Law s := by
  have hcount := h.count
  have hcalls := h.calls
  rw [hrunning] at hcount hcalls
  have hperm : s.called.Perm (callbacks s.popped.flatten) := by
    simpa [callbacks] using hcalls
  have hids : (s.popped.flatten.map (·.id)).Nodup := by
    have hall := h.entries.nodup_iff.mpr List.nodup_range
    rw [List.map_append] at hall
    exact (List.nodup_append.mp hall).1
  refine ⟨?_, h.held, h.entries, ⟨?_, hperm⟩, fun l hl => ?_⟩
  · simpa using hcount
  · rw [hperm.nodup_iff, callbacks]
    exact hids.sublist (List.filter_sublist.map _)
  · obtain hsub | ⟨rest, hrest, l', heq, hsub⟩ := h.order l hl
    · exact hsub
    · rw [hrunning, List.map_nil, List.mem_singleton] at hrest
      rw [heq, hrest]
      simpa [callbacks] using hsub

end

/-- **The grabs are counted.** In every run, when the outermost call has returned, the count is that
of the stack, the stage is grabbed exactly while it is positive, and the entries that were popped
were called, once each and from the top. -/
theorem run_grabs_counted {es : List Event} (hrun : Runs.run GrabHelper.step State.new es = some s)
    (hrunning : s.running = []) : Law s := by
  have hinv : Inv s 0 [] := by
    have hreach := Runs.Reachable.of_run es hrun
    exact hreach.invariant (I := fun u => Inv u 0 []) Inv.new fun _ _ _ h _ hstep => h.step hstep
  exact hinv.law hrunning

/-- The callback of the upper one of two grabs grabs again and drops that grab; the next one waits
until the last callback has returned. -/
def nested : List Event :=
  [.grab (some 1) true true, .grab (some 2) true true, .ungrab (some (some 1)),
    .grab (some 2) true false, .ungrab none, .returns, .returns, .returns,
    .grab (some 4) true false]

theorem run_grabs_counted_nested :
    ∃ s, Runs.run GrabHelper.step State.new nested = some s ∧ Law s := by
  have hends : (Runs.run GrabHelper.step State.new nested).map (·.running) = some [] := by decide
  obtain ⟨s, hrun, hrunning⟩ := Option.map_eq_some_iff.mp hends
  exact ⟨s, hrun, run_grabs_counted hrun hrunning⟩

end Calls

end GrabHelper
