import Mathlib.Data.List.Basic

/-!
# Util.History — the history of an entry

`HistoryManager` of `js/misc/history.js`. Navigation writes the text of the entry into the list in
memory, below the last item as a new one; `addItem` compares with the last item of that list, and
`_save` writes all of it. A change of the setting sets the list anew, also one by `_save`.

* **`Inv.step`**: the index stays in the list or right behind it.
* **`asked_addItem_iff`**: what the setting holds after `addItem`, by cases on the comparison.
* **`run_asked`**: the headline.
-/

namespace Util.HistoryManager

/-! ## The model -/

def defaultLimit : ℕ := 512

structure State where
  limit : ℕ
  history : List String
  historyIndex : ℕ := 0
  shown : String := ""
  /-- The strings of the setting; none without a `gsettingsKey`. -/
  stored : Option (List String)
deriving DecidableEq

def State.new (limit : ℕ) (stored : Option (List String)) : State :=
  { limit, history := stored.getD [], stored }

/-- The characters that `trim` removes. -/
def isSpace (c : Char) : Bool :=
  c.val ∈ [0x9, 0xA, 0xB, 0xC, 0xD, 0x20, 0xA0, 0x1680, 0x2000, 0x2001, 0x2002, 0x2003, 0x2004, 0x2005,
    0x2006, 0x2007, 0x2008, 0x2009, 0x200A, 0x2028, 0x2029, 0x202F, 0x205F, 0x3000, 0xFEFF]

def trim (text : String) : String :=
  .ofList ((text.toList.dropWhile isSpace).reverse.dropWhile isSpace).reverse

namespace State

variable (s : State)

def historyChanged (stored : List String) : State :=
  { s with stored := some stored, history := stored, historyIndex := stored.length }

def indexChanged : State := { s with shown := s.history.getD s.historyIndex "" }

variable (text : String)

/-- `if (text) this._history[this._historyIndex] = text`; the index is not beyond the end. -/
def writeText : State :=
  if text = "" then s
  else if s.historyIndex < s.history.length then { s with history := s.history.set s.historyIndex text }
  else { s with history := s.history ++ [text] }

def setPrevItem : State × Bool :=
  if s.historyIndex = 0 then (s, false)
  else
    let s := s.writeText text
    (indexChanged { s with historyIndex := s.historyIndex - 1 }, true)

def setNextItem : State × Bool :=
  if s.history.length ≤ s.historyIndex then (s, false)
  else
    let s := s.writeText text
    (indexChanged { s with historyIndex := s.historyIndex + 1 }, true)

def lastItem : State × Option String :=
  let s := if s.historyIndex ≠ s.history.length then
    indexChanged { s with historyIndex := s.history.length } else s
  (s, if s.historyIndex = 0 then none else s.history[s.historyIndex - 1]?)

/-- The `changed` that this causes sets the same list. -/
def save : State :=
  let history := s.history.drop (s.history.length - s.limit)
  { s with history, stored := s.stored.map fun _ => history }

def addItem (input : String) : State × String :=
  let input := trim input
  let s := if input ≠ "" ∧ s.history.getLast? ≠ some input then
    save { s with history := s.history.filter (· ≠ input) ++ [input] } else s
  ({ s with historyIndex := s.history.length }, input)

end State

inductive Event where
  | up (text : String)
  | down (text : String)
  | lastItem
  | changed (stored : List String)
  | addItem (input : String)

def step (s : State) : Event → State
  | .up text => (s.setPrevItem (trim text)).1
  | .down text => (s.setNextItem (trim text)).1
  | .lastItem => s.lastItem.1
  | .changed stored => if s.stored.isSome then s.historyChanged stored else s
  | .addItem input => (s.addItem input).1

/-! ## What is asked -/

/-- The list ends with the text, holds it once and has at most `limit` entries. -/
structure Asked (limit : ℕ) (stored : List String) (text : String) : Prop where
  last : stored.getLast? = some text
  once : stored.count text = 1
  length : stored.length ≤ limit

def Saves (s : State) (text : String) : Prop :=
  if s.history.getLast? = some text then ∀ stored ∈ s.stored, Asked s.limit stored text
  else 0 < s.limit

variable {s : State}

structure Inv (stored : Bool) (s : State) : Prop where
  index : s.historyIndex ≤ s.history.length
  isSome : s.stored.isSome = stored

variable (text : String)

theorem writeText_index : (s.writeText text).historyIndex = s.historyIndex := by
  unfold State.writeText
  split
  · rfl
  split
  · rfl
  · rfl

theorem writeText_length : s.history.length ≤ (s.writeText text).history.length := by
  unfold State.writeText
  split
  · exact Nat.le_refl _
  split
  · exact Nat.le_of_eq List.length_set.symm
  · change _ ≤ (s.history ++ [text]).length
    rw [List.length_append]
    omega

theorem writeText_stored : (s.writeText text).stored = s.stored := by
  unfold State.writeText
  split
  · rfl
  split
  · rfl
  · rfl

theorem addItem_index (input : String) :
    (s.addItem input).1.historyIndex = (s.addItem input).1.history.length := by
  unfold State.addItem
  dsimp only

theorem addItem_stored (input : String) : (s.addItem input).1.stored =
    if trim input ≠ "" ∧ s.history.getLast? ≠ some (trim input) then
      s.stored.map fun _ => (s.history.filter (· ≠ trim input) ++ [trim input]).drop
        ((s.history.filter (· ≠ trim input) ++ [trim input]).length - s.limit)
    else s.stored := by
  unfold State.addItem
  dsimp only
  split
  · rfl
  · rfl

/-- **Step lemma.** -/
theorem Inv.step {stored : Bool} (h : Inv stored s) (e : Event) : Inv stored (step s e) := by
  obtain ⟨hindex, hstored⟩ := h
  cases e with
  | up text =>
    change Inv stored (s.setPrevItem (trim text)).1
    generalize trim text = t
    unfold State.setPrevItem
    split
    · exact ⟨hindex, hstored⟩
    · have hlength := writeText_length (s := s) t
      have hsame := writeText_index (s := s) t
      refine ⟨?_, by rw [← hstored, ← writeText_stored (s := s) t]; rfl⟩
      change (s.writeText t).historyIndex - 1 ≤ (s.writeText t).history.length
      omega
  | down text =>
    change Inv stored (s.setNextItem (trim text)).1
    generalize trim text = t
    unfold State.setNextItem
    split
    · exact ⟨hindex, hstored⟩
    · next hlt =>
      have hlength := writeText_length (s := s) t
      have hsame := writeText_index (s := s) t
      refine ⟨?_, by rw [← hstored, ← writeText_stored (s := s) t]; rfl⟩
      change (s.writeText t).historyIndex + 1 ≤ (s.writeText t).history.length
      omega
  | lastItem =>
    change Inv stored (if _ then _ else s)
    split
    · exact ⟨Nat.le_refl _, hstored⟩
    · exact ⟨hindex, hstored⟩
  | changed l =>
    change Inv stored (if _ then _ else s)
    split
    · next hsome => exact ⟨Nat.le_refl _, hsome.symm.trans hstored⟩
    · exact ⟨hindex, hstored⟩
  | addItem input =>
    refine ⟨Nat.le_of_eq (addItem_index input), ?_⟩
    change (s.addItem input).1.stored.isSome = stored
    rw [addItem_stored]
    split
    · exact Option.isSome_map.trans hstored
    · exact hstored

/-- What `_save` writes after a text was added. -/
theorem asked_save_iff {limit : ℕ} {l : List String} {text : String} (hfresh : text ∉ l) :
    Asked limit ((l ++ [text]).drop ((l ++ [text]).length - limit)) text ↔ 0 < limit := by
  have hlength : (l ++ [text]).length = l.length + 1 := by
    rw [List.length_append, List.length_singleton]
  constructor
  · intro h
    have hpos := List.length_pos_of_mem (List.mem_of_getLast? h.last)
    exact Nat.lt_of_lt_of_le hpos h.length
  · intro hlimit
    have hdrop : (l ++ [text]).drop ((l ++ [text]).length - limit) =
        l.drop ((l ++ [text]).length - limit) ++ [text] :=
      List.drop_append_of_le_length (by omega)
    rw [hdrop]
    refine ⟨List.getLast?_concat, ?_, ?_⟩
    · have hnone : (l.drop ((l ++ [text]).length - limit)).count text = 0 :=
        List.count_eq_zero_of_not_mem fun hmem => hfresh (List.mem_of_mem_drop hmem)
      rw [List.count_append, hnone, List.count_singleton_self]
    · rw [List.length_append, List.length_drop, List.length_singleton]
      omega

/-- **`addItem`**, with a setting. The two cases are those of its comparison. -/
theorem asked_addItem_iff {stored : List String} (hstored : s.stored = some stored) {input : String}
    (hinput : trim input ≠ "") :
    (∃ l, (s.addItem input).1.stored = some l ∧ Asked s.limit l (trim input)) ↔
      Saves s (trim input) := by
  unfold Saves
  rw [addItem_stored, hstored]
  split
  · next hadded =>
    have hfresh : trim input ∉ s.history.filter (· ≠ trim input) := by simp
    rw [if_neg hadded.2, ← asked_save_iff hfresh]
    constructor
    · rintro ⟨l, heq, h⟩
      obtain rfl := Option.some.inj heq
      exact h
    · exact fun h => ⟨_, rfl, h⟩
  · next hkept =>
    have hlast : s.history.getLast? = some (trim input) := by
      by_contra hne
      exact hkept ⟨hinput, hne⟩
    rw [if_pos hlast]
    constructor
    · rintro ⟨l, heq, h⟩ l' hl'
      exact Option.some.inj (heq.symm.trans hl') ▸ h
    · exact fun h => ⟨stored, rfl, h stored rfl⟩

/-- The index stays in range. With a setting, `addItem` of a text that is not blank leaves what is
asked exactly if the list in memory does not end with the text, or the setting had all that already.
-/
theorem run_asked (limit : ℕ) (stored : Option (List String)) (es : List Event) :
    let s := es.foldl step (.new limit stored)
    s.historyIndex ≤ s.history.length ∧ ∀ input, stored.isSome → trim input ≠ "" →
      ((∃ l, (s.addItem input).1.stored = some l ∧ Asked s.limit l (trim input)) ↔
        Saves s (trim input)) := by
  have hinv : ∀ s, Inv stored.isSome s → Inv stored.isSome (es.foldl step s) := by
    induction es with
    | nil => exact fun s h => h
    | cons e es ih => exact fun s h => ih _ (h.step e)
  have h := hinv (.new limit stored) ⟨Nat.zero_le _, rfl⟩
  refine ⟨h.index, fun input hsome hinput => ?_⟩
  obtain ⟨l, hl⟩ := Option.isSome_iff_exists.mp (h.isSome.trans hsome)
  exact asked_addItem_iff hl hinput

/-- `Up` makes an item of the text that was typed, and `Down` comes back to it. -/
def draft : List Event := [.addItem "ls", .up "xterm", .down "ls"]

theorem run_asked_draft : let s := draft.foldl step (.new defaultLimit (some []))
    ∃ l, (s.addItem "gedit").1.stored = some l ∧ Asked s.limit l (trim "gedit") :=
  ((run_asked defaultLimit (some []) draft).2 "gedit" rfl (by decide)).mpr (by
    rw [Saves, if_neg (by decide)]
    decide)

theorem not_run_asked : ¬ ∀ (es : List Event) (input : String), trim input ≠ "" →
    let s := es.foldl step (.new defaultLimit (some []))
    ∃ l, (s.addItem input).1.stored = some l ∧ Asked s.limit l (trim input) := by
  intro h
  obtain ⟨l, hl, hasked⟩ := h draft "xterm" (by decide)
  have hstored : ((draft.foldl step (.new defaultLimit (some []))).addItem "xterm").1.stored =
      some ["ls"] := by decide
  obtain rfl := Option.some.inj (hstored.symm.trans hl)
  exact absurd hasked.last (by decide)

end Util.HistoryManager
