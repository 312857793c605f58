import Mathlib.Data.List.Nodup
import Mathlib.Logic.Function.Basic

/-!
# Signals — objects that emit signals, and the handlers connected to them

A handler is connected to a signal of an object under a new id and disconnected by that id. An
emission calls the handlers that are connected when it begins, those that were connected to be
called after the others last, and skips a handler that has been disconnected in the meantime.

* `Emitters.Sound`: no id is used twice, so that no handler is disconnected twice.
* `emit`: an emission, for any state that has emitters in it; `emit_rule` is its invariant rule.
-/

namespace Signals

structure Handler (γ : Type*) where
  id : ℕ
  signalName : String
  after : Bool
  callback : γ

/-- The connected handlers of each object in the order in which they were connected, and every
handler that `disconnect` was called for. -/
structure Emitters (ο γ : Type*) where
  handlers : ο → List (Handler γ)
  nextId : ℕ
  disconnected : List (ο × ℕ)

variable {ο γ σ : Type*}

namespace Emitters

def empty : Emitters ο γ := ⟨fun _ => [], 1, []⟩

variable [DecidableEq ο]

/-- Connects a handler, under the id `nextId`. -/
def connect (e : Emitters ο γ) (x : ο) (signalName : String) (after : Bool) (callback : γ) :
    Emitters ο γ where
  handlers := Function.update e.handlers x (e.handlers x ++ [⟨e.nextId, signalName, after, callback⟩])
  nextId := e.nextId + 1
  disconnected := e.disconnected

def disconnect (e : Emitters ο γ) (x : ο) (id : ℕ) : Emitters ο γ where
  handlers := Function.update e.handlers x ((e.handlers x).filter (·.id ≠ id))
  nextId := e.nextId
  disconnected := e.disconnected ++ [(x, id)]

def disconnectAll (e : Emitters ο γ) (x : ο) (ids : List ℕ) : Emitters ο γ :=
  ids.foldl (fun e id => e.disconnect x id) e

def disconnect? (e : Emitters ο γ) (x : ο) : Option ℕ → Emitters ο γ
  | none => e
  | some id => e.disconnect x id

def isConnected (e : Emitters ο γ) (x : ο) (id : ℕ) : Bool := (e.handlers x).any (·.id = id)

def emission (e : Emitters ο γ) (x : ο) (signalName : String) : List (Handler γ) :=
  let connected := (e.handlers x).filter (·.signalName = signalName)
  connected.filter (!·.after) ++ connected.filter (·.after)

/-! ## What an operation leaves connected -/

variable {e : Emitters ο γ} {x y : ο} {h : Handler γ} {id : ℕ}

theorem handlers_connect (e : Emitters ο γ) (x y : ο) (signalName : String) (after : Bool)
    (callback : γ) : (e.connect x signalName after callback).handlers y =
      e.handlers y ++ if y = x then [⟨e.nextId, signalName, after, callback⟩] else [] := by
  show Function.update e.handlers x _ y = _
  rw [Function.update_apply]
  split
  · rename_i heq
    rw [heq]
  · exact (List.append_nil _).symm

theorem mem_handlers_connect {signalName : String} {after : Bool} {callback : γ} :
    h ∈ (e.connect x signalName after callback).handlers y ↔
      h ∈ e.handlers y ∨ y = x ∧ h = ⟨e.nextId, signalName, after, callback⟩ := by
  rw [handlers_connect, List.mem_append]
  by_cases hy : y = x
  · rw [if_pos hy, List.mem_singleton, and_iff_right hy]
  · rw [if_neg hy, iff_false_intro List.not_mem_nil, iff_false_intro fun h' => hy (And.left h')]

theorem handlers_disconnect (e : Emitters ο γ) (x y : ο) (id : ℕ) :
    (e.disconnect x id).handlers y = (e.handlers y).filter (fun h => ¬ (y = x ∧ h.id = id)) := by
  show Function.update e.handlers x _ y = _
  rw [Function.update_apply]
  split
  · rename_i heq
    rw [heq]
    apply List.filter_congr
    intro h _
    simp
  · rename_i hne
    symm
    rw [List.filter_eq_self]
    intro h _
    simp [hne]

theorem handlers_disconnectAll (e : Emitters ο γ) (x y : ο) (ids : List ℕ) :
    (e.disconnectAll x ids).handlers y =
      (e.handlers y).filter (fun h => ¬ (y = x ∧ h.id ∈ ids)) := by
  rw [disconnectAll]
  induction ids generalizing e with
  | nil =>
    symm
    rw [List.foldl_nil, List.filter_eq_self]
    intro h _
    simp
  | cons id ids ih =>
    rw [List.foldl_cons, ih, handlers_disconnect, List.filter_filter]
    apply List.filter_congr
    intro h _
    simp only [List.mem_cons, ← Bool.decide_and, decide_eq_decide]
    constructor
    · rintro ⟨h1, h2⟩ ⟨h3, h4 | h4⟩
      · exact h2 ⟨h3, h4⟩
      · exact h1 ⟨h3, h4⟩
    · intro h1
      exact ⟨fun h2 => h1 ⟨h2.1, .inr h2.2⟩, fun h2 => h1 ⟨h2.1, .inl h2.2⟩⟩

omit [DecidableEq ο] in
theorem isConnected_iff : e.isConnected x id = true ↔ ∃ h ∈ e.handlers x, h.id = id := by
  rw [isConnected, List.any_eq_true]
  simp only [decide_eq_true_eq]

omit [DecidableEq ο] in
theorem mem_emission {signalName : String} :
    h ∈ e.emission x signalName ↔ h ∈ e.handlers x ∧ h.signalName = signalName := by
  rw [emission, List.mem_append, List.mem_filter, List.mem_filter, List.mem_filter]
  simp only [decide_eq_true_eq]
  cases h.after <;> simp

/-! ## Ids -/

structure Sound (e : Emitters ο γ) : Prop where
  ordered : ∀ x, ((e.handlers x).map Handler.id).Pairwise (· < ·)
  fresh : ∀ x, ∀ h ∈ e.handlers x, h.id < e.nextId
  once : e.disconnected.Nodup
  gone : ∀ p ∈ e.disconnected, p.2 < e.nextId ∧ ∀ h ∈ e.handlers p.1, h.id ≠ p.2

omit [DecidableEq ο] in
theorem Sound.empty : (empty : Emitters ο γ).Sound where
  ordered _ := .nil
  fresh _ _ hh := absurd hh List.not_mem_nil
  once := List.nodup_nil
  gone _ hp := absurd hp List.not_mem_nil

omit [DecidableEq ο] in
theorem Sound.nodup (hs : e.Sound) (x : ο) : ((e.handlers x).map Handler.id).Nodup :=
  (hs.ordered x).imp Nat.ne_of_lt

omit [DecidableEq ο] in
theorem Sound.eq_of_id (hs : e.Sound) {h' : Handler γ} (hh : h ∈ e.handlers x)
    (hh' : h' ∈ e.handlers x) (hid : h.id = h'.id) : h = h' :=
  List.inj_on_of_nodup_map (hs.nodup x) hh hh' hid

theorem Sound.connect (hs : e.Sound) (x : ο) (signalName : String) (after : Bool) (callback : γ) :
    (e.connect x signalName after callback).Sound where
  ordered y := by
    rw [handlers_connect, List.map_append, List.pairwise_append]
    refine ⟨hs.ordered y, ?_, ?_⟩
    · split
      · exact List.pairwise_singleton _ _
      · exact .nil
    · intro id hid id' hid'
      obtain ⟨h, hh, rfl⟩ := List.mem_map.mp hid
      have hlt := hs.fresh y h hh
      split at hid'
      · rw [List.map_singleton, List.mem_singleton] at hid'
        rw [hid']
        exact hlt
      · exact absurd hid' List.not_mem_nil
  fresh y h hh := by
    rw [handlers_connect, List.mem_append] at hh
    show h.id < e.nextId + 1
    rcases hh with hh | hh
    · have := hs.fresh y h hh
      omega
    · split at hh
      · rw [List.mem_singleton.mp hh]
        exact Nat.lt_succ_self _
      · exact absurd hh List.not_mem_nil
  once := hs.once
  gone p hp := by
    obtain ⟨hlt, hgone⟩ := hs.gone p hp
    refine ⟨Nat.lt_succ_of_lt hlt, fun h hh => ?_⟩
    rw [handlers_connect, List.mem_append] at hh
    rcases hh with hh | hh
    · exact hgone h hh
    · split at hh
      · rw [List.mem_singleton.mp hh]
        exact (Nat.ne_of_lt hlt).symm
      · exact absurd hh List.not_mem_nil

theorem Sound.disconnect (hs : e.Sound) (hconn : ∃ h ∈ e.handlers x, h.id = id) :
    (e.disconnect x id).Sound where
  ordered y := by
    rw [handlers_disconnect]
    exact (hs.ordered y).sublist (List.filter_sublist.map _)
  fresh y h hh := by
    rw [handlers_disconnect] at hh
    exact hs.fresh y h (List.mem_of_mem_filter hh)
  once := by
    show (e.disconnected ++ [(x, id)]).Nodup
    rw [List.nodup_append]
    refine ⟨hs.once, List.nodup_singleton _, fun p hp q hq heq => ?_⟩
    obtain ⟨h, hh, hid⟩ := hconn
    rw [List.mem_singleton.mp hq] at heq
    subst heq
    exact (hs.gone _ hp).2 h hh hid
  gone p hp := by
    rcases List.mem_append.mp hp with hp | hp
    · refine ⟨(hs.gone p hp).1, fun h hh => ?_⟩
      rw [handlers_disconnect] at hh
      exact (hs.gone p hp).2 h (List.mem_of_mem_filter hh)
    · obtain ⟨h, hh, hid⟩ := hconn
      rw [List.mem_singleton.mp hp]
      refine ⟨hid ▸ hs.fresh x h hh, fun h' hh' => ?_⟩
      rw [handlers_disconnect, List.mem_filter] at hh'
      have := of_decide_eq_true hh'.2
      exact fun heq => this ⟨rfl, heq⟩

theorem Sound.disconnectAll (hs : e.Sound) {ids : List ℕ} (hnodup : ids.Nodup)
    (hconn : ∀ id ∈ ids, ∃ h ∈ e.handlers x, h.id = id) : (e.disconnectAll x ids).Sound := by
  rw [Emitters.disconnectAll]
  induction ids generalizing e with
  | nil => exact hs
  | cons id ids ih =>
    obtain ⟨hid, hids⟩ := List.nodup_cons.mp hnodup
    rw [List.foldl_cons]
    apply ih (hs.disconnect (hconn id List.mem_cons_self)) hids
    intro id' hid'
    obtain ⟨h, hh, heq⟩ := hconn id' (List.mem_cons_of_mem _ hid')
    refine ⟨h, ?_, heq⟩
    rw [handlers_disconnect, List.mem_filter]
    refine ⟨hh, decide_eq_true fun h' => hid ?_⟩
    rw [← h'.2, heq]
    exact hid'

theorem Sound.disconnect? (hs : e.Sound) (x : ο) (id? : Option ℕ) (P : Handler γ → Prop)
    [DecidablePred P] (hconn : ∀ id, id? = some id → ∃ h ∈ e.handlers x, h.id = id)
    (hP : ∀ h ∈ e.handlers x, id? = some h.id ↔ P h) : (e.disconnect? x id?).Sound ∧
      ∀ y, (e.disconnect? x id?).handlers y = (e.handlers y).filter (fun h => ¬ (y = x ∧ P h)) := by
  cases id? with
  | none =>
    refine ⟨hs, fun y => ?_⟩
    show e.handlers y = _
    symm
    rw [List.filter_eq_self]
    intro h hh
    apply decide_eq_true
    rintro ⟨rfl, hp⟩
    cases (hP h hh).mpr hp
  | some id =>
    refine ⟨hs.disconnect (hconn id rfl), fun y => ?_⟩
    rw [Emitters.disconnect?, handlers_disconnect]
    apply List.filter_congr
    intro h hh
    rw [decide_eq_decide, not_iff_not]
    apply and_congr_right
    rintro rfl
    rw [← hP h hh, Option.some_inj, eq_comm]

end Emitters

/-! ## Emissions -/

/-- Calls the handlers of `calls` that are still connected. -/
def callAll (emitters : σ → Emitters ο γ) (call : σ → γ → σ) (x : ο) (calls : List (Handler γ))
    (s : σ) : σ :=
  calls.foldl
    (fun s h => if (emitters s).isConnected x h.id then call s h.callback else s) s

def emit (emitters : σ → Emitters ο γ) (call : σ → γ → σ) (x : ο) (signalName : String) (s : σ) :
    σ :=
  callAll emitters call x ((emitters s).emission x signalName) s

/-- Each handler that is called finds a state that meets `ok`. -/
def CallsAllowed (emitters : σ → Emitters ο γ) (call : σ → γ → σ) (ok : σ → γ → Prop) (x : ο) :
    List (Handler γ) → σ → Prop
  | [], _ => True
  | h :: calls, s =>
    if (emitters s).isConnected x h.id then
      ok s h.callback ∧ CallsAllowed emitters call ok x calls (call s h.callback)
    else CallsAllowed emitters call ok x calls s

instance CallsAllowed.decidable (emitters : σ → Emitters ο γ) (call : σ → γ → σ)
    (ok : σ → γ → Prop) [∀ s c, Decidable (ok s c)] (x : ο) :
    (calls : List (Handler γ)) → (s : σ) → Decidable (CallsAllowed emitters call ok x calls s)
  | [], _ => .isTrue trivial
  | h :: calls, s =>
    have := CallsAllowed.decidable emitters call ok x calls (call s h.callback)
    have := CallsAllowed.decidable emitters call ok x calls s
    inferInstanceAs (Decidable (if (emitters s).isConnected x h.id = true then
      ok s h.callback ∧ CallsAllowed emitters call ok x calls (call s h.callback)
    else CallsAllowed emitters call ok x calls s))

theorem callsAllowed_any (emitters : σ → Emitters ο γ) (call : σ → γ → σ) (x : ο)
    (calls : List (Handler γ)) (s : σ) :
    CallsAllowed emitters call (fun _ _ => True) x calls s := by
  induction calls generalizing s with
  | nil => exact trivial
  | cons h calls ih =>
    rw [CallsAllowed]
    split
    · exact ⟨trivial, ih _⟩
    · exact ih s

/-- **The invariant rule of an emission.** `I` speaks of the handlers that are still to be called.
Induction on these. -/
theorem callAll_allowed_rule {emitters : σ → Emitters ο γ} {call : σ → γ → σ}
    {ok : σ → γ → Prop} {x : ο} {I : List (Handler γ) → σ → Prop} {calls : List (Handler γ)} {s : σ}
    (hallowed : CallsAllowed emitters call ok x calls s) (hinit : I calls s)
    (hcall : ∀ h calls s, I (h :: calls) s → (∃ h' ∈ (emitters s).handlers x, h'.id = h.id) →
      ok s h.callback → I calls (call s h.callback))
    (hskip : ∀ h calls s, I (h :: calls) s → (∀ h' ∈ (emitters s).handlers x, h'.id ≠ h.id) →
      I calls s) :
    I [] (callAll emitters call x calls s) := by
  rw [callAll]
  induction calls generalizing s with
  | nil => exact hinit
  | cons h calls ih =>
    rw [CallsAllowed] at hallowed
    rw [List.foldl_cons]
    split
    · rename_i hconn
      rw [if_pos hconn] at hallowed
      apply ih hallowed.2
      exact hcall h calls s hinit (Emitters.isConnected_iff.mp hconn) hallowed.1
    · rename_i hconn
      rw [if_neg hconn] at hallowed
      apply ih hallowed
      refine hskip h calls s hinit fun h' hh' heq => hconn ?_
      exact Emitters.isConnected_iff.mpr ⟨h', hh', heq⟩

theorem callAll_rule {emitters : σ → Emitters ο γ} {call : σ → γ → σ} {x : ο}
    {I : List (Handler γ) → σ → Prop} {calls : List (Handler γ)} {s : σ} (hinit : I calls s)
    (hcall : ∀ h calls s, I (h :: calls) s → (∃ h' ∈ (emitters s).handlers x, h'.id = h.id) →
      I calls (call s h.callback))
    (hskip : ∀ h calls s, I (h :: calls) s → (∀ h' ∈ (emitters s).handlers x, h'.id ≠ h.id) →
      I calls s) :
    I [] (callAll emitters call x calls s) :=
  callAll_allowed_rule (callsAllowed_any emitters call x calls s) hinit
    (fun h calls s hs hconn _ => hcall h calls s hs hconn) hskip

end Signals
