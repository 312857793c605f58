import GnomeShellMobile.Runs.Basic
import GnomeShellMobile.Utf16.Basic
import Mathlib.Data.Int.Notation
import Mathlib.Data.List.TakeWhile

/-!
# KeyboardController — the delete key

`toggleDelete` and `_previousWordPosition` of `KeyboardController` in `js/ui/keyboard.js`. The input
method counts the cursor and the anchor in characters; a text is searched in UTF-16 units.

* **`search_ofChars`** — the pattern is found at a character, the first one that starts it.
* **`previousWordPosition_spec`** — what it finds is the last word, with the blanks before it.
* **`perform_handsOver`** — the headline: what each event hands to `delete_surrounding`.
-/

namespace KeyboardController

open Utf16

def backspaceWordDeleteThreshold : ℕ := 50

/-- `\s` of a regular expression. -/
def isSpace (u : ℕ) : Bool :=
  u ∈ [0x9, 0xA, 0xB, 0xC, 0xD, 0x20, 0xA0, 0x1680, 0x2028, 0x2029, 0x202F, 0x205F, 0x3000, 0xFEFF] ||
    0x2000 ≤ u && u ≤ 0x200A

variable (text : List ℕ)

/-- `\s+\S+\s*$` from the start of the text on: no unit is both `\s` and `\S`, so the blanks end where
the word starts. -/
def startsPattern : Bool :=
  let word := text.dropWhile isSpace
  let blanks := word.dropWhile (!isSpace ·)
  text.head?.any isSpace && !word.isEmpty && (blanks.dropWhile isSpace).isEmpty

def searchFrom (position : ℤ) : List ℕ → ℤ
  | [] => -1
  | u :: text => if startsPattern (u :: text) then position else searchFrom (position + 1) text

def search : ℤ := searchFrom 0 text

/-- `GLib.utf8_strlen`, which stops at a zero. -/
def utf8Strlen : ℕ := ((codePoints text).takeWhile (· ≠ [0])).length

def previousWordPosition (cursor : ℕ) : ℕ :=
  let upToCursor := ((codePoints text).take cursor).flatten
  let jsStringPos := max 0 (search upToCursor)
  utf8Strlen (text.take jsStringPos.toNat)

/-- The offset and the length that `func` hands to `delete_surrounding`. -/
def func (timesDeleted : ℕ) (text : List ℕ) (cursor anchor : ℕ) : Option (ℤ × ℤ) :=
  if cursor = 0 ∧ anchor = 0 then none
  else if cursor > anchor then
    let offset : ℤ := anchor - cursor
    some (offset, -offset)
  else if cursor < anchor then some (0, anchor - cursor)
  else if timesDeleted < backspaceWordDeleteThreshold then some (-1, 1)
  else
    let wordLength : ℤ := cursor - previousWordPosition text cursor
    some (-wordLength, wordLength)

/-- What `getSurroundingText` returns: a text without a zero, as it was a string of C, with the cursor
and the anchor in it. -/
structure Surrounding where
  text : List Char
  cursor : ℕ
  anchor : ℕ
  nonzero : ∀ c ∈ text, c.toNat ≠ 0
  cursor_le : cursor ≤ text.length
  anchor_le : anchor ≤ text.length

structure State where
  deleteEnabled : Bool
  timesDeleted : ℕ
  backspacePressed : Bool
  /-- `_surroundingUpdateId` is connected. -/
  surroundingUpdate : Bool
  /-- What the timeout `_surroundingUpdateTimeoutId` was started for. -/
  surroundingUpdateTimeout : Option Surrounding

inductive Effect where
  | keyvalPress
  | keyvalRelease
  | requestSurrounding
  | deleteSurrounding (offset len : ℤ)
deriving DecidableEq

variable (s : State)

def State.delete (text : List ℕ) (cursor anchor : ℕ) : State × List Effect :=
  match func s.timesDeleted text cursor anchor with
  | none => (s, [])
  | some (offset, len) =>
    ({ s with timesDeleted := s.timesDeleted + 1 }, [.deleteSurrounding offset len])

/-- `toggleDelete`; `surrounding` is what the input method knows. -/
def State.toggleDelete (enabled useTextInput : Bool) (surrounding : Option Surrounding) :
    State × List Effect :=
  if s.deleteEnabled = enabled then (s, [])
  else
    let s := { s with deleteEnabled := enabled, timesDeleted := 0 }
    if enabled && !useTextInput then ({ s with backspacePressed := true }, [.keyvalPress])
    else if !enabled && s.backspacePressed then ({ s with backspacePressed := false }, [.keyvalRelease])
    else if enabled then
      let s := { s with surroundingUpdate := true }
      match surrounding with
      | none => (s, [.requestSurrounding])
      | some u =>
        if u.text.isEmpty then (s, [.requestSurrounding])
        else s.delete (ofChars u.text) u.cursor u.anchor
    else ({ s with surroundingUpdate := false, surroundingUpdateTimeout := none }, [])

def State.surroundingTextSet (u : Surrounding) : State × List Effect :=
  if s.timesDeleted = 0 then s.delete (ofChars u.text) u.cursor u.anchor
  else ({ s with surroundingUpdateTimeout := some u }, [])

inductive Event where
  | toggleDelete (enabled useTextInput : Bool) (surrounding : Option Surrounding)
  | surroundingTextSet (u : Surrounding)
  | timeout

def perform : Event → Option (State × List Effect)
  | .toggleDelete enabled useTextInput surrounding => some (s.toggleDelete enabled useTextInput surrounding)
  | .surroundingTextSet u => if s.surroundingUpdate then some (s.surroundingTextSet u) else none
  | .timeout =>
    s.surroundingUpdateTimeout.map fun u =>
      { s with surroundingUpdateTimeout := none }.delete (ofChars u.text) u.cursor u.cursor

/-! ## What is meant to be deleted -/

def isBlank (c : Char) : Bool := isSpace c.toNat

structure EndsWithWord (before blanks word after : List Char) : Prop where
  blanks : blanks ≠ [] ∧ ∀ c ∈ blanks, isBlank c = true
  word : word ≠ [] ∧ ∀ c ∈ word, isBlank c = false
  after : ∀ c ∈ after, isBlank c = true
  before : ∀ c ∈ before.getLast?, isBlank c = false

def LastWord (text : List Char) (start : ℕ) : Prop :=
  (∃ before blanks word after, text = before ++ blanks ++ word ++ after ∧
      EndsWithWord before blanks word after ∧ start = before.length) ∨
    (∀ before blanks word after, text = before ++ blanks ++ word ++ after →
      ¬EndsWithWord before blanks word after) ∧ start = 0

structure Deletes (text : List Char) (cursor anchor timesDeleted : ℕ) (offset len : ℤ) : Prop where
  nonempty : 0 < len
  inside : 0 ≤ cursor + offset ∧ cursor + offset + len ≤ text.length
  selection : cursor ≠ anchor → cursor + offset = min cursor anchor ∧ cursor + offset + len = max cursor anchor
  character : cursor = anchor → timesDeleted < backspaceWordDeleteThreshold → offset = -1 ∧ len = 1
  word : cursor = anchor → backspaceWordDeleteThreshold ≤ timesDeleted →
    offset + len = 0 ∧ ∃ start : ℕ, LastWord (text.take cursor) start ∧ cursor + offset = start

/-! ## The search -/

theorem isSpace_lt {u : ℕ} (h : isSpace u = true) : u < 0xD800 ∨ u = 0xFEFF := by
  simp only [isSpace, Bool.or_eq_true, decide_eq_true_eq, Bool.and_eq_true, List.mem_cons,
    List.not_mem_nil, or_false] at h
  omega

theorem agree_isSpace : Agree isSpace isBlank := by
  intro c u hu
  unfold encode at hu
  split at hu
  · rw [List.mem_singleton.mp hu]
    rfl
  · next hastral =>
    have hblank : isBlank c = false := by
      rw [← Bool.not_eq_true]
      intro h
      have hlt := isSpace_lt h
      omega
    rw [hblank, ← Bool.not_eq_true]
    intro h
    have hlt := isSpace_lt h
    obtain ⟨⟨hhighLow, hhighHigh⟩, hlowLow, hlowHigh⟩ := surrogates hastral
    rcases List.mem_cons.mp hu with rfl | hu
    · omega
    · rw [List.mem_singleton] at hu
      omega

variable (cs : List Char)

def startsWithBlank : Bool :=
  let word := cs.dropWhile isBlank
  let blanks := word.dropWhile (!isBlank ·)
  cs.head?.any isBlank && !word.isEmpty && (blanks.dropWhile isBlank).isEmpty

theorem isEmpty_ofChars : (ofChars cs).isEmpty = cs.isEmpty := by
  rw [Bool.eq_iff_iff, List.isEmpty_iff, List.isEmpty_iff, ofChars_eq_nil]

theorem head?_ofChars : (ofChars cs).head?.any isSpace = cs.head?.any isBlank := by
  cases cs with
  | nil => rfl
  | cons c cs =>
    obtain ⟨u, us, hunits⟩ := List.exists_cons_of_ne_nil (encode_ne_nil c)
    rw [ofChars_cons, hunits]
    exact agree_isSpace c u (hunits ▸ List.mem_cons_self)

theorem startsPattern_ofChars :
    startsPattern (ofChars cs) = startsWithBlank cs := by
  unfold startsPattern startsWithBlank
  dsimp only
  rw [agree_isSpace.dropWhile_ofChars, agree_isSpace.not.dropWhile_ofChars,
    agree_isSpace.dropWhile_ofChars, isEmpty_ofChars, isEmpty_ofChars, head?_ofChars]

theorem searchFrom_encode (c : Char) (cs : List Char) (position : ℤ) :
    searchFrom position (encode c ++ ofChars cs) =
      if startsWithBlank (c :: cs) then position
      else searchFrom (position + (encode c).length) (ofChars cs) := by
  have hpattern := startsPattern_ofChars (c :: cs)
  have hunits := agree_isSpace c
  rw [ofChars_cons] at hpattern
  unfold encode at hpattern hunits ⊢
  split at hpattern
  · next h =>
    rw [if_pos h, List.singleton_append, searchFrom, ← hpattern]
    rfl
  · next h =>
    rw [if_neg h] at hunits ⊢
    have hblank : isBlank c = false := by
      have hhigh := hunits _ List.mem_cons_self
      rw [← hhigh, ← Bool.not_eq_true]
      intro hspace
      have hlt := isSpace_lt hspace
      have hsurrogate := (surrogates h).1
      unfold IsHigh at hsurrogate
      omega
    have hlow := hunits _ (List.mem_cons_of_mem _ List.mem_cons_self)
    rw [hblank] at hlow
    have hnot : startsPattern ((0xDC00 + (c.toNat - 0x10000) % 0x400) :: ofChars cs) = false := by
      rw [startsPattern, List.head?_cons, Option.any_some, hlow, Bool.false_and, Bool.false_and]
    rw [List.cons_append, List.singleton_append] at hpattern ⊢
    have htwo : position + 1 + 1 = position + ((2 : ℕ) : ℤ) := by omega
    rw [searchFrom, searchFrom, hpattern, hnot, if_neg Bool.false_ne_true, htwo]
    rfl

/-- The first match is at a character; or there is none. Induction on the characters. -/
theorem searchFrom_ofChars (position : ℤ) :
    (∃ before rest, cs = before ++ rest ∧ startsWithBlank rest = true ∧
        (∀ b r, cs = b ++ r → startsWithBlank r = true → before.length ≤ b.length) ∧
        searchFrom position (ofChars cs) = position + (ofChars before).length) ∨
      (∀ b r, cs = b ++ r → startsWithBlank r = false) ∧ searchFrom position (ofChars cs) = -1 := by
  induction cs generalizing position with
  | nil =>
    refine .inr ⟨fun b r h => ?_, rfl⟩
    rw [(List.append_eq_nil_iff.mp h.symm).2]
    rfl
  | cons c cs ih =>
    rw [ofChars_cons, searchFrom_encode]
    cases hstarts : startsWithBlank (c :: cs) with
    | true =>
      refine .inl ⟨[], c :: cs, rfl, hstarts, fun _ _ _ _ => Nat.zero_le _, ?_⟩
      rw [if_pos rfl]
      exact (Int.add_zero position).symm
    | false =>
      rw [if_neg Bool.false_ne_true]
      rcases ih (position + (encode c).length) with ⟨before, rest, hcs, hrest, hfirst, heq⟩ | ⟨hnone, heq⟩
      · refine .inl ⟨c :: before, rest, by rw [hcs, List.cons_append], hrest, ?_, ?_⟩
        · intro b r hbr hr
          cases b with
          | nil =>
            rw [List.nil_append] at hbr
            rw [← hbr, hstarts] at hr
            cases hr
          | cons d b =>
            have htail := hfirst b r (List.cons.inj hbr).2 hr
            exact Nat.succ_le_succ htail
        · rw [heq, ofChars_cons, List.length_append]
          omega
      · refine .inr ⟨fun b r hbr => ?_, heq⟩
        cases b with
        | nil =>
          rw [List.nil_append] at hbr
          rw [← hbr, hstarts]
        | cons d b => exact hnone b r (List.cons.inj hbr).2

/-! ## The last word -/

theorem dropWhile_word {word after : List Char} (hne : word ≠ []) (hword : ∀ c ∈ word, isBlank c = false) :
    (word ++ after).dropWhile isBlank = word ++ after := by
  cases word with
  | nil => exact absurd rfl hne
  | cons c word =>
    rw [List.cons_append, List.dropWhile_cons_of_neg (by rw [hword c List.mem_cons_self]; decide)]

theorem dropWhile_blanks {after : List Char} (hafter : ∀ c ∈ after, isBlank c = true) :
    after.dropWhile isBlank = [] := List.dropWhile_eq_nil_iff.mpr hafter

theorem startsWithBlank_iff : startsWithBlank cs = true ↔
    ∃ blanks word after, cs = blanks ++ word ++ after ∧ (blanks ≠ [] ∧ ∀ c ∈ blanks, isBlank c = true) ∧
      (word ≠ [] ∧ ∀ c ∈ word, isBlank c = false) ∧ ∀ c ∈ after, isBlank c = true := by
  constructor
  · intro h
    simp only [startsWithBlank, Bool.and_eq_true, Bool.not_eq_true', List.isEmpty_iff,
      List.isEmpty_eq_false_iff] at h
    obtain ⟨⟨hhead, hrest⟩, hafter⟩ := h
    refine ⟨cs.takeWhile isBlank, (cs.dropWhile isBlank).takeWhile (!isBlank ·),
      (cs.dropWhile isBlank).dropWhile (!isBlank ·), ?_, ⟨?_, ?_⟩, ⟨?_, ?_⟩, ?_⟩
    · rw [List.append_assoc, List.takeWhile_append_dropWhile, List.takeWhile_append_dropWhile]
    · cases cs with
      | nil => cases hhead
      | cons c cs =>
        have hfirst : isBlank c = true := hhead
        rw [List.takeWhile_cons_of_pos hfirst]
        exact List.cons_ne_nil _ _
    · exact fun c hc => List.mem_takeWhile_imp hc
    · have hfirst := List.head_dropWhile_not isBlank hrest
      obtain ⟨c, word, hword⟩ := List.exists_cons_of_ne_nil hrest
      simp only [hword, List.head_cons] at hfirst
      rw [hword, List.takeWhile_cons_of_pos (by rw [hfirst]; rfl)]
      exact List.cons_ne_nil _ _
    · intro c hc
      simpa using List.mem_takeWhile_imp hc
    · exact List.dropWhile_eq_nil_iff.mp hafter
  · rintro ⟨blanks, word, after, rfl, ⟨hblanks, hblank⟩, ⟨hword, hnonblank⟩, hafter⟩
    have hdrop : (blanks ++ word ++ after).dropWhile isBlank = word ++ after := by
      rw [List.append_assoc, List.dropWhile_append_of_pos hblank, dropWhile_word hword hnonblank]
    have htrail : (word ++ after).dropWhile (!isBlank ·) = after.dropWhile (!isBlank ·) :=
      List.dropWhile_append_of_pos fun c hc => by rw [hnonblank c hc]; rfl
    have hall : (after.dropWhile (!isBlank ·)).dropWhile isBlank = [] :=
      dropWhile_blanks fun c hc => hafter c ((List.dropWhile_sublist _).mem hc)
    unfold startsWithBlank
    dsimp only
    rw [hdrop, htrail, hall]
    obtain ⟨c, cs, rfl⟩ := List.exists_cons_of_ne_nil hblanks
    obtain ⟨d, ds, rfl⟩ := List.exists_cons_of_ne_nil hword
    show isBlank c && true && true = true
    rw [hblank c List.mem_cons_self]
    rfl

theorem utf8Strlen_ofChars {cs : List Char} (h : ∀ c ∈ cs, c.toNat ≠ 0) :
    utf8Strlen (ofChars cs) = cs.length := by
  have hall : ∀ us ∈ cs.map encode, decide (us ≠ [0]) = true := by
    intro us hus
    obtain ⟨c, hc, rfl⟩ := List.mem_map.mp hus
    apply decide_eq_true
    unfold encode
    split
    · exact fun heq => h c hc (List.singleton_inj.mp heq)
    · exact fun heq => by simp at heq
  rw [utf8Strlen, codePoints_ofChars, List.takeWhile_eq_self_iff.mpr hall, List.length_map]

variable (u : Surrounding)

theorem previousWordPosition_spec :
    LastWord (u.text.take u.cursor) (previousWordPosition (ofChars u.text) u.cursor) ∧
      (0 < u.cursor → previousWordPosition (ofChars u.text) u.cursor < u.cursor) := by
  have htext := List.take_append_drop u.cursor u.text
  have hlength : (u.text.take u.cursor).length = u.cursor := by
    rw [List.length_take]
    exact Nat.min_eq_left u.cursor_le
  unfold previousWordPosition search
  dsimp only
  rw [flatten_take_codePoints]
  rcases searchFrom_ofChars (u.text.take u.cursor) 0 with
    ⟨before, rest, htake, hrest, hfirst, heq⟩ | ⟨hnone, heq⟩
  · have hwhole : u.text = before ++ (rest ++ u.text.drop u.cursor) := by
      rw [← List.append_assoc, ← htake, htext]
    have hlen : utf8Strlen ((ofChars u.text).take (ofChars before).length) = before.length := by
      have hunits := take_ofChars before (rest ++ u.text.drop u.cursor)
      rw [← hwhole] at hunits
      rw [hunits]
      apply utf8Strlen_ofChars
      intro c hc
      apply u.nonzero
      rw [hwhole]
      exact List.mem_append_left _ hc
    have hposition : (max 0 ((0 : ℤ) + (ofChars before).length)).toNat = (ofChars before).length := by
      omega
    rw [heq, hposition, hlen]
    obtain ⟨blanks, word, after, hsplit, hblanks, hword, hafter⟩ := (startsWithBlank_iff rest).mp hrest
    constructor
    · left
      refine ⟨before, blanks, word, after, by rw [htake, hsplit]; simp, ⟨hblanks, hword, hafter, ?_⟩, rfl⟩
      -- a blank before the match would start one
      intro c hc
      rw [← Bool.not_eq_true]
      intro hblank
      obtain ⟨init, rfl⟩ := List.getLast?_eq_some_iff.mp hc
      have hearlier := hfirst init (c :: rest) (by rw [htake]; simp) <| by
        rw [startsWithBlank_iff]
        refine ⟨c :: blanks, word, after, by rw [hsplit]; simp, ⟨List.cons_ne_nil _ _, ?_⟩, hword, hafter⟩
        intro d hd
        rcases List.mem_cons.mp hd with rfl | hd
        · exact hblank
        · exact hblanks.2 d hd
      rw [List.length_append, List.length_singleton] at hearlier
      omega
    · intro _
      have hpos : 0 < blanks.length := List.length_pos_of_ne_nil hblanks.1
      have htotal := congrArg List.length htake
      rw [hlength, hsplit] at htotal
      simp only [List.length_append] at htotal
      omega
  · rw [heq]
    refine ⟨.inr ⟨?_, rfl⟩, fun hpos => hpos⟩
    intro before blanks word after hsplit hends
    have hstarts : startsWithBlank (blanks ++ word ++ after) = true :=
      (startsWithBlank_iff _).mpr ⟨blanks, word, after, rfl, hends.blanks, hends.word, hends.after⟩
    rw [hnone before _ (by rw [hsplit]; simp)] at hstarts
    cases hstarts

/-! ## What is handed over -/

theorem func_eq_none_iff (timesDeleted : ℕ) (text : List ℕ) (cursor anchor : ℕ) :
    func timesDeleted text cursor anchor = none ↔ cursor = 0 ∧ anchor = 0 := by
  unfold func
  split
  · next h => exact ⟨fun _ => h, fun _ => rfl⟩
  · next h =>
    refine ⟨fun hnone => ?_, fun h' => absurd h' h⟩
    repeat' split at hnone
    all_goals cases hnone

theorem func_deletes {anchor timesDeleted : ℕ} (hanchor : anchor ≤ u.text.length)
    {offset len : ℤ} (h : func timesDeleted (ofChars u.text) u.cursor anchor = some (offset, len)) :
    Deletes u.text u.cursor anchor timesDeleted offset len := by
  have hcursor := u.cursor_le
  unfold func at h
  split at h
  · cases h
  · next hzero =>
    split at h
    · next hgreater =>
      cases h
      refine ⟨by omega, by omega, fun _ => by omega, fun heq => ?_, fun heq => ?_⟩ <;> omega
    · next hnot =>
      split at h
      · next hless =>
        cases h
        refine ⟨by omega, by omega, fun _ => by omega, fun heq => ?_, fun heq => ?_⟩ <;> omega
      · next hnot' =>
        split at h
        · next hbelow =>
          cases h
          refine ⟨by omega, by omega, fun hne => ?_, fun _ _ => ⟨rfl, rfl⟩, fun _ hfrom => ?_⟩ <;> omega
        · next hfrom =>
          cases h
          obtain ⟨hword, hlt⟩ := previousWordPosition_spec u
          have hposition := hlt (by omega)
          refine ⟨by omega, by omega, fun hne => ?_, fun _ hbelow => ?_,
            fun _ _ => ⟨by omega, _, hword, ?_⟩⟩ <;>
            omega

def Event.asks : Event → Option (Surrounding × ℕ × ℕ)
  | .toggleDelete true true (some u) =>
    if s.deleteEnabled = true ∨ u.text.isEmpty = true then none else some (u, u.anchor, 0)
  | .surroundingTextSet u => if s.timesDeleted = 0 then some (u, u.anchor, 0) else none
  | .timeout => s.surroundingUpdateTimeout.map fun u => (u, u.cursor, s.timesDeleted)
  | _ => none

def HandsOver (effects : List Effect) : Surrounding × ℕ × ℕ → Prop := fun (u, anchor, timesDeleted) =>
  if u.cursor = 0 ∧ anchor = 0 then effects = []
  else ∃ offset len, effects = [.deleteSurrounding offset len] ∧
    Deletes u.text u.cursor anchor timesDeleted offset len

theorem handsOver_delete {anchor : ℕ} (hanchor : anchor ≤ u.text.length) :
    HandsOver (s.delete (ofChars u.text) u.cursor anchor).2 (u, anchor, s.timesDeleted) := by
  unfold HandsOver State.delete
  dsimp only
  cases hfunc : func s.timesDeleted (ofChars u.text) u.cursor anchor with
  | none => rw [if_pos ((func_eq_none_iff _ _ _ _).mp hfunc)]
  | some range =>
    have hnonzero : ¬(u.cursor = 0 ∧ anchor = 0) := by
      rw [← func_eq_none_iff s.timesDeleted (ofChars u.text), hfunc]
      exact Option.some_ne_none _
    rw [if_neg hnonzero]
    exact ⟨range.1, range.2, rfl, func_deletes u hanchor hfunc⟩

theorem toggleDelete_handsOver (enabled useTextInput : Bool)
    (surrounding : Option Surrounding) :
    match (Event.toggleDelete enabled useTextInput surrounding).asks s with
    | none => ∀ offset len, .deleteSurrounding offset len ∉ (s.toggleDelete enabled useTextInput surrounding).2
    | some asked => HandsOver (s.toggleDelete enabled useTextInput surrounding).2 asked := by
  unfold State.toggleDelete
  cases enabled with
  | false =>
    intro offset len
    split
    · exact List.not_mem_nil
    · dsimp only
      split
      · simp
      · split <;> simp
  | true =>
    cases useTextInput with
    | false =>
      intro offset len
      split <;> simp
    | true =>
      cases surrounding with
      | none =>
        intro offset len
        split <;> simp
      | some u =>
        simp only [Event.asks]
        by_cases hasks : s.deleteEnabled = true ∨ u.text.isEmpty = true
        · rw [if_pos hasks]
          intro offset len
          split
          · exact List.not_mem_nil
          · next henabled =>
            have hempty : u.text.isEmpty = true := hasks.resolve_left henabled
            simp [hempty]
        · rw [if_neg hasks]
          rw [not_or] at hasks
          rw [if_neg hasks.1]
          simp only [Bool.not_true, Bool.and_false, Bool.false_and, Bool.false_eq_true, if_false, if_true,
            hasks.2]
          exact handsOver_delete { s with deleteEnabled := true, timesDeleted := 0, surroundingUpdate := true }
            u u.anchor_le

/-- What each event hands over: the selection counts when the key is pressed, and in the first text that
is set afterwards; later on there is only the cursor. -/
theorem perform_handsOver {s t : State} {e : Event} {effects : List Effect}
    (h : perform s e = some (t, effects)) : match e.asks s with
    | none => ∀ offset len, .deleteSurrounding offset len ∉ effects
    | some asked => HandsOver effects asked := by
  cases e with
  | toggleDelete enabled useTextInput surrounding =>
    have heffects : (s.toggleDelete enabled useTextInput surrounding).2 = effects :=
      congrArg Prod.snd (Option.some.inj h)
    rw [← heffects]
    exact toggleDelete_handsOver s enabled useTextInput surrounding
  | surroundingTextSet u =>
    obtain ⟨-, h⟩ := Option.ite_none_right_eq_some.mp h
    have heffects : (s.surroundingTextSet u).2 = effects := congrArg Prod.snd (Option.some.inj h)
    rw [← heffects]
    unfold State.surroundingTextSet
    simp only [Event.asks]
    by_cases htimes : s.timesDeleted = 0
    · rw [if_pos htimes, if_pos htimes, ← htimes]
      exact handsOver_delete s u u.anchor_le
    · rw [if_neg htimes, if_neg htimes]
      exact fun _ _ => List.not_mem_nil
  | timeout =>
    obtain ⟨u, hu, h⟩ := Option.map_eq_some_iff.mp h
    have heffects : ({ s with surroundingUpdateTimeout := none }.delete (ofChars u.text)
        u.cursor u.cursor).2 = effects := congrArg Prod.snd h
    simp only [Event.asks, hu, Option.map_some]
    rw [← heffects]
    exact handsOver_delete { s with surroundingUpdateTimeout := none } u u.cursor_le

def released : State := ⟨false, 0, false, false, none⟩

def step (e : Event) : Option State := (perform s e).map Prod.fst

/-- `ab`, with the cursor at the end. -/
def twoLetters : Surrounding := ⟨['a', 'b'], 2, 2, by simp, by decide, by decide⟩

/-- `abc`, with the last two letters selected. -/
def selected : Surrounding := ⟨['a', 'b', 'c'], 1, 3, by simp, by decide, by decide⟩

def lastOfTwoWords : Surrounding :=
  ⟨['a', ' ', Char.ofNat 0x1F600, 'b', ' '], 5, 5, by simp, by decide, by decide⟩

theorem perform_handsOver_lastWord :
    (perform { released with timesDeleted := 50, surroundingUpdateTimeout := some lastOfTwoWords }
      .timeout).map (·.2) = some [.deleteSurrounding (-4) 4] ∧
    HandsOver [.deleteSurrounding (-4) 4] (lastOfTwoWords, 5, 50) := by
  have hperform : perform
      { released with timesDeleted := 50, surroundingUpdateTimeout := some lastOfTwoWords } .timeout =
      some ({ released with timesDeleted := 51 }, [.deleteSurrounding (-4) 4]) := by rfl
  exact ⟨congrArg (Option.map (·.2)) hperform, perform_handsOver hperform⟩

/-- A selection that is made while the key is held is not what is deleted. -/
theorem not_deletes_selection : ∃ s t, Runs.run step released
      [.toggleDelete true true (some twoLetters), .surroundingTextSet selected] = some s ∧
    s.surroundingUpdateTimeout = some selected ∧
    perform s .timeout = some (t, [.deleteSurrounding (-1) 1]) ∧
    ¬Deletes selected.text selected.cursor selected.anchor s.timesDeleted (-1) 1 := by
  refine ⟨_, _, rfl, rfl, rfl, fun hdeletes => ?_⟩
  have hselection := (hdeletes.selection (by decide)).1
  revert hselection
  decide

end KeyboardController
