import GnomeShellMobile.Runs.Basic
import GnomeShellMobile.ShellSecureTextBuffer.Buffer

/-!
# ShellSecureTextBuffer — the block holds the text that was typed

The bytes and the characters of the text are counted apart, the block grows by doubling up to its
greatest size, and there what is inserted is cut back to whole characters.

* **`grow_spec`**: the loop ends with a block in which the longest prefix that fits has room.
* **`Holds`**: what the block, its size and the two counts are for a text.
* **`holds_insertText`** and **`holds_deleteText`**: one call.
* **`performAll_spec`**: every sequence of calls.
-/

namespace ShellSecureTextBuffer

open Utf8

variable {text : List Char} {b : Buffer} {platform : Platform} {maxSize : ℕ} {position nChars : ℕ}

/-- The greatest size is not below the first, and memory that is moved keeps what it held. -/
structure Platform.Documented (platform : Platform) : Prop where
  minSize_le : MIN_SIZE ≤ platform.maxSize
  length_realloc : ∀ mem n, (platform.realloc mem n).length = n
  prefix_realloc : ∀ mem n, mem.length ≤ n → mem <+: platform.realloc mem n

def Call.Proper (length : ℕ) : Call → Prop
  | .insertText position chars nChars =>
    position ≤ length ∧ nChars ≤ chars.length ∧ '\x00' ∉ chars
  | .deleteText position nChars => position + nChars < GUINT_RANGE

structure LongestPrefix (P : List Char → Prop) (cs kept : List Char) : Prop where
  isPrefix : kept <+: cs
  prop : P kept
  length_le : ∀ p, p <+: cs → P p → p.length ≤ kept.length

inductive Edited (maxSize : ℕ) (text : List Char) : Call → List Char → ℕ → Prop
  | insertText {position nChars : ℕ} {chars kept : List Char}
      (hkept : LongestPrefix (fun kept => size text + size kept + 1 ≤ maxSize) (chars.take nChars)
        kept) :
      Edited maxSize text (.insertText position chars nChars)
        (text.take position ++ kept ++ text.drop position) kept.length
  | deleteText {position nChars : ℕ} :
      Edited maxSize text (.deleteText position nChars)
        (text.take position ++ text.drop (position + nChars))
        (min nChars (text.length - position))

inductive EditedAll (maxSize : ℕ) : List Char → List Call → List Char → List ℕ → Prop
  | nil {text : List Char} : EditedAll maxSize text [] text []
  | cons {text text' text'' : List Char} {c : Call} {calls : List Call} {k : ℕ} {ks : List ℕ}
      (hfirst : Edited maxSize text c text' k) (hrest : EditedAll maxSize text' calls text'' ks) :
      EditedAll maxSize text (c :: calls) text'' (k :: ks)

structure Holds (maxSize : ℕ) (b : Buffer) (text : List Char) : Prop where
  take_eq : b.text.take b.textBytes = encode text
  nul : b.text[b.textBytes]? = some 0
  length_eq : b.text.length = b.textSize
  textBytes_eq : b.textBytes = size text
  textChars_eq : b.textChars = text.length
  room : b.textBytes + 1 ≤ b.textSize
  textSize_le : b.textSize ≤ maxSize

/-! ## The block -/

theorem Holds.exists_rest (h : Holds maxSize b text) :
    ∃ rest, b.text = encode text ++ 0 :: rest := by
  refine ⟨b.text.drop (b.textBytes + 1), ?_⟩
  have hlt : b.textBytes < b.text.length := by
    have hroom := h.room
    rw [h.length_eq]
    omega
  have hnul : b.text[b.textBytes] = 0 := by
    have hnul := h.nul
    rw [List.getElem?_eq_getElem hlt] at hnul
    exact Option.some.inj hnul
  rw [← hnul, List.getElem_cons_drop, ← h.take_eq, List.take_append_drop]

theorem holds_of_eq (rest : List UInt8)
    (htext : b.text = encode text ++ 0 :: rest) (hlen : b.text.length = b.textSize)
    (hbytes : b.textBytes = size text) (hchars : b.textChars = text.length)
    (hmax : b.textSize ≤ maxSize) : Holds maxSize b text where
  take_eq := by rw [htext, hbytes, size, List.take_left]
  nul := by
    rw [htext, hbytes, size, List.getElem?_append_right le_rfl, Nat.sub_self, List.getElem?_cons_zero]
  length_eq := hlen
  textBytes_eq := hbytes
  textChars_eq := hchars
  room := by
    rw [← hlen, hbytes, htext, List.length_append, ← size, List.length_cons]
    omega
  textSize_le := hmax

/-! ## The growth loop -/

/-- The loop ends, and with a block in which what is left of `given` has room. Induction on the
turns. -/
theorem grow_spec {maxSize textBytes : ℕ} {given : List Char} (hmin : MIN_SIZE ≤ maxSize)
    (hnul : '\x00' ∉ given) (tail : List UInt8) (g : Growth) (hnBytes : g.nBytes = size given)
    (hnChars : g.nChars = given.length) (hle : g.textSize ≤ maxSize)
    (hroom : textBytes + 1 ≤ g.textSize ∨ g.textSize = 0 ∧ textBytes = 0) :
    ∃ textSize kept, grow maxSize (encode given ++ tail) textBytes g =
        some ⟨textSize, size kept, kept.length⟩ ∧
      kept = fit (maxSize - textBytes - 1) given ∧ size kept + textBytes + 1 ≤ textSize ∧
      g.textSize ≤ textSize ∧ textSize ≤ maxSize := by
  -- the text that is there has room in the greatest block
  have hmax : textBytes + 1 ≤ maxSize := by
    rcases hroom with hroom | ⟨-, hzero⟩
    · omega
    · rw [MIN_SIZE] at hmin
      omega
  fun_induction grow maxSize (encode given ++ tail) textBytes g with
  | case1 g _ hzero ih =>
    have hbytes : textBytes = 0 := by omega
    obtain ⟨textSize, kept, hgrow, hfit, hlen, -, hmaxSize⟩ := ih hnBytes hnChars hmin
      (.inl (by rw [hbytes]; exact Nat.succ_le_succ (Nat.zero_le 15)))
    exact ⟨textSize, kept, hgrow, hfit, hlen, by omega, hmaxSize⟩
  | case2 g _ hnonzero hless ih =>
    obtain ⟨textSize, kept, hgrow, hfit, hlen, hgrown, hmaxSize⟩ := ih hnBytes hnChars
      (show g.textSize * 2 ≤ maxSize by omega)
      (.inl (show textBytes + 1 ≤ g.textSize * 2 by omega))
    have hgrown' : g.textSize * 2 ≤ textSize := hgrown
    exact ⟨textSize, kept, hgrow, hfit, hlen, by omega, hmaxSize⟩
  | case3 g _ hnonzero hmuch hcut =>
    -- the greatest size, and not enough: the start of the first character that does not fit
    rw [hnBytes] at hcut
    have hsize := size_fit_le (maxSize - textBytes - 1) given
    have hstrlen := strlen_prefix (fit_isPrefix (maxSize - textBytes - 1) given) hnul tail
    refine ⟨maxSize, _, ?_, rfl, by omega, hle, le_rfl⟩
    rw [findPrevChar_encode hcut, Option.map_some, hstrlen]
  | case4 g _ hnonzero hmuch henough =>
    rw [hnBytes] at henough
    refine ⟨maxSize, given, ?_, (fit_eq_self (by omega)).symm, by omega, hle, le_rfl⟩
    rw [← hnBytes, ← hnChars]
  | case5 g henough =>
    rw [hnBytes] at henough
    refine ⟨g.textSize, given, ?_, (fit_eq_self (by omega)).symm, by omega, le_rfl, hle⟩
    rw [← hnBytes, ← hnChars]

/-! ## An insertion -/

structure Begins (maxSize : ℕ) (b : Buffer) (text : List Char) : Prop where
  exists_rest : ∃ rest, b.text = encode text ++ rest
  length_eq : b.text.length = b.textSize
  textBytes_eq : b.textBytes = size text
  textChars_eq : b.textChars = text.length
  room : b.textBytes + 1 ≤ b.textSize ∨ b.textSize = 0 ∧ b.textBytes = 0
  textSize_le : b.textSize ≤ maxSize

theorem Holds.begins (h : Holds maxSize b text) : Begins maxSize b text where
  __ := h
  exists_rest := h.exists_rest.imp' (0 :: ·) fun _ => id
  room := .inl h.room

theorem begins_new (maxSize : ℕ) : Begins maxSize new [] where
  exists_rest := ⟨[], rfl⟩
  length_eq := rfl
  textBytes_eq := rfl
  textChars_eq := rfl
  room := .inr ⟨rfl, rfl⟩
  textSize_le := Nat.zero_le _

theorem size_insert (text kept : List Char) (position : ℕ) :
    size (text.take position ++ kept ++ text.drop position) = size text + size kept := by
  have hsize : size text = size (text.take position) + size (text.drop position) := by
    rw [← size_append, List.take_append_drop]
  rw [size_append, size_append, hsize, Nat.add_right_comm]

theorem writes_eq (text kept : List Char) (position : ℕ) {rest : List UInt8}
    (hroom : size kept + 1 ≤ rest.length) (more : List UInt8) : ∃ moved copied,
      Bytes.memmove (encode text ++ rest) (size (text.take position) + size kept)
        (size (text.take position)) (size text - size (text.take position)) = some moved ∧
      Bytes.memcpy moved (size (text.take position)) (encode kept ++ more) (size kept) =
        some copied ∧
      Bytes.store copied (size text + size kept) 0 =
        some (encode (text.take position ++ kept ++ text.drop position) ++
          0 :: rest.drop (size kept + 1)) := by
  have htext : encode text = encode (text.take position) ++ encode (text.drop position) := by
    rw [← encode_append, List.take_append_drop]
  have hmoved : size text - size (text.take position) = size (text.drop position) := by
    rw [size, htext, List.length_append, ← size, ← size, Nat.add_sub_cancel_left]
  have hblock : encode (text.take position) ++ encode kept ++ encode (text.drop position) =
      encode (text.take position ++ kept ++ text.drop position) := by
    rw [encode_append, encode_append]
  obtain ⟨moved, hmove, hcopy⟩ := Option.bind_eq_some_iff.mp
    (Bytes.insert_bytes (encode (text.take position)) (encode (text.drop position)) rest
      (encode kept) more (show size kept ≤ rest.length by omega))
  have hold : rest.drop (size kept) = rest[size kept] :: rest.drop (size kept + 1) :=
    List.drop_eq_getElem_cons (by omega)
  rw [hblock, show (encode kept).length = size kept from rfl, hold] at hcopy
  refine ⟨moved, _, ?_, hcopy, ?_⟩
  · rw [htext, hmoved]
    exact hmove
  · rw [← size_insert text kept position]
    exact Bytes.store_eq _ _ _ 0

theorem longestPrefix_fit (h : size text + 1 ≤ maxSize) (given : List Char) :
    LongestPrefix (fun kept => size text + size kept + 1 ≤ maxSize) given
      (fit (maxSize - size text - 1) given) where
  isPrefix := fit_isPrefix _ _
  prop := by
    have hle := size_fit_le (maxSize - size text - 1) given
    omega
  length_le := fun _ hpre hsize => length_le_fit hpre (by omega)

theorem begins_memory
    (hplatform : platform.Documented) (h : Begins platform.maxSize b text) {given : List Char}
    (hnul : '\x00' ∉ given) (tail : List UInt8) : ∃ textSize mem rest kept,
      (if size given + b.textBytes + 1 > b.textSize then
        (grow platform.maxSize (encode given ++ tail) b.textBytes
          ⟨b.textSize, size given, given.length⟩).map fun g => (g, platform.realloc b.text g.textSize)
      else some (⟨b.textSize, size given, given.length⟩, b.text)) =
        some (⟨textSize, size kept, kept.length⟩, mem) ∧
      kept = fit (platform.maxSize - size text - 1) given ∧
      mem = encode text ++ rest ∧ mem.length = textSize ∧
      size text + size kept + 1 ≤ textSize ∧ textSize ≤ platform.maxSize := by
  obtain ⟨rest, hrest⟩ := h.exists_rest
  have hbytes := h.textBytes_eq
  have hle := h.textSize_le
  by_cases hmore : size given + b.textBytes + 1 > b.textSize
  · obtain ⟨textSize, kept, hgrow, hfit, hroom, hgrown, hmax⟩ := grow_spec hplatform.minSize_le hnul tail
      ⟨b.textSize, size given, given.length⟩ rfl rfl hle h.room
    have hgrown' : b.text.length ≤ textSize := h.length_eq.le.trans hgrown
    obtain ⟨new, hnew⟩ := hplatform.prefix_realloc b.text textSize hgrown'
    refine ⟨textSize, platform.realloc b.text textSize, rest ++ new, kept, ?_, hbytes ▸ hfit, ?_,
      hplatform.length_realloc _ _, by omega, hmax⟩
    · rw [if_pos hmore, hgrow, Option.map_some]
    · rw [← hnew, hrest, List.append_assoc]
  · refine ⟨b.textSize, b.text, rest, given, if_neg hmore, ?_, hrest, h.length_eq, by omega, hle⟩
    exact (fit_eq_self (by omega)).symm

/-- **An insertion** puts the longest prefix that fits at the position. -/
theorem holds_insertText (hplatform : platform.Documented) (h : Begins platform.maxSize b text)
    {chars : List Char} (hproper : (Call.insertText position chars nChars).Proper b.textChars) :
    ∃ b' text' k, perform platform b (.insertText position chars nChars) = some (b', k) ∧
      Edited platform.maxSize text (.insertText position chars nChars) text' k ∧
      Holds platform.maxSize b' text' := by
  obtain ⟨hposition, hnChars, hnul⟩ := hproper
  rw [h.textChars_eq] at hposition
  have hlen : (chars.take nChars).length = nChars := by
    rw [List.length_take]
    omega
  have hnul' : '\x00' ∉ chars.take nChars := fun hmem => hnul (List.mem_of_mem_take hmem)
  obtain ⟨more, hmore⟩ : ∃ more, encode chars ++ [0] = encode (chars.take nChars) ++ more := by
    refine ⟨encode (chars.drop nChars) ++ [0], ?_⟩
    rw [← List.append_assoc, ← encode_append, List.take_append_drop]
  obtain ⟨textSize, mem, rest, kept, hgrow, hkept, hrest, hlength, hroom, hmax⟩ :=
    begins_memory hplatform h hnul' more
  have hroomText : size text + 1 ≤ platform.maxSize := by omega
  have hrestlen : mem.length = size text + rest.length := by rw [hrest, List.length_append, size]
  obtain ⟨moved, copied, hmove, hcopy, hstore⟩ :=
    writes_eq text kept position (show size kept + 1 ≤ rest.length by omega)
      (encode ((chars.take nChars).drop kept.length) ++ more)
  have hchars : encode chars ++ [0] =
      encode kept ++ (encode ((chars.take nChars).drop kept.length) ++ more) := by
    have hpre : kept <+: chars.take nChars := hkept ▸ fit_isPrefix _ _
    rw [hmore, ← List.append_assoc, ← encode_append]
    conv_lhs => rw [← List.take_append_drop kept.length (chars.take nChars)]
    rw [← List.prefix_iff_eq_take.mp hpre]
  have hinserted : perform platform b (.insertText position chars nChars) =
      some (⟨encode (text.take position ++ kept ++ text.drop position) ++
          0 :: rest.drop (size kept + 1), textSize, size text + size kept,
          text.length + kept.length⟩, kept.length) := by
    rw [← hmore, hlen] at hgrow
    rw [perform, realInsertText, offsetToPointer_encode hnChars]
    simp only [Option.bind_eq_bind, Option.bind_some, hgrow]
    simp only [hrest, h.textBytes_eq, h.textChars_eq, offsetToPointer_encode hposition,
      Option.bind_some, hmove]
    rw [hchars, hcopy, Option.bind_some, hstore]
    rfl
  refine ⟨_, text.take position ++ kept ++ text.drop position, kept.length, hinserted, ?_, ?_⟩
  · exact .insertText (hkept ▸ longestPrefix_fit hroomText _)
  · refine holds_of_eq _ rfl ?_ (size_insert _ _ _).symm ?_ hmax
    · show (encode _ ++ 0 :: rest.drop (size kept + 1)).length = textSize
      rw [← hlength, hrestlen, List.length_append, ← size, List.length_cons, List.length_drop,
        size_insert]
      omega
    · show text.length + kept.length = _
      simp only [List.length_append, List.length_take, List.length_drop]
      omega

/-! ## A deletion -/

theorem realDeleteText_eq (b : Buffer) (h : position + nChars < GUINT_RANGE) :
    realDeleteText b position nChars =
      if 0 < min nChars (b.textChars - position) then do
        let start ← offsetToPointer b.text position
        let stop ← offsetToPointer b.text (position + min nChars (b.textChars - position))
        let text ← Bytes.memmove b.text start stop (b.textBytes + 1 - stop)
        return (⟨text, b.textSize, b.textBytes - (stop - start),
          b.textChars - min nChars (b.textChars - position)⟩, min nChars (b.textChars - position))
      else some (b, 0) := by
  rw [realDeleteText]
  rcases lt_or_ge b.textChars position with hbeyond | hwithin
  · have hmod : (b.textChars + nChars) % GUINT_RANGE = b.textChars + nChars :=
      Nat.mod_eq_of_lt (by omega)
    have hcount : b.textChars - position = 0 := by omega
    rw [if_pos hbeyond, hmod, hcount, Nat.min_zero, if_neg (lt_irrefl 0)]
    have hzero : (if b.textChars + nChars > b.textChars then b.textChars - b.textChars else nChars) =
        0 := by
      split <;> omega
    simp only [hzero, gt_iff_lt, lt_irrefl, if_false]
  · have hmod : (position + nChars) % GUINT_RANGE = position + nChars := Nat.mod_eq_of_lt h
    have hcount : (if position + nChars > b.textChars then b.textChars - position else nChars) =
        min nChars (b.textChars - position) := by
      split <;> omega
    rw [if_neg (not_lt.mpr hwithin), hmod]
    show (if 0 < if position + nChars > b.textChars then b.textChars - position else nChars
      then _ else _) = _
    simp only [hcount]
    split
    · rfl
    · next hzero => rw [Nat.eq_zero_of_not_pos hzero]

theorem edited_of_zero {maxSize position nChars : ℕ} (h : min nChars (text.length - position) = 0) :
    Edited maxSize text (.deleteText position nChars) text 0 := by
  have htext : text.take position ++ text.drop (position + nChars) = text := by
    rcases Nat.min_eq_zero_iff.mp h with hn | hlen
    · rw [hn, Nat.add_zero, List.take_append_drop]
    · rw [List.drop_eq_nil_of_le (by omega), List.append_nil, List.take_of_length_le (by omega)]
  have hedited := @Edited.deleteText maxSize text position nChars
  rwa [htext, h] at hedited

theorem exists_cut (text : List Char) (position nChars : ℕ) :
    ∃ front mid back, text = front ++ mid ++ back ∧ text.take position = front ∧
      text.take (position + min nChars (text.length - position)) = front ++ mid ∧
      text.drop (position + nChars) = back ∧ mid.length = min nChars (text.length - position) := by
  obtain ⟨count, hcount⟩ : ∃ count, count = min nChars (text.length - position) := ⟨_, rfl⟩
  have hdrop : text.drop (position + nChars) = text.drop (position + count) := by
    rcases min_choice nChars (text.length - position) with hn | hlen
    · rw [hcount, hn]
    · rw [List.drop_eq_nil_of_le (by omega), List.drop_eq_nil_of_le (by omega)]
  rw [← hcount, hdrop]
  refine ⟨text.take position, (text.drop position).take count, text.drop (position + count), ?_, rfl,
    List.take_add, rfl, ?_⟩
  · rw [List.append_assoc, ← List.drop_drop, List.take_append_drop, List.take_append_drop]
  · rw [List.length_take, List.length_drop]
    omega

/-- **A deletion** takes the range, clamped to the text, out. -/
theorem holds_deleteText (h : Holds platform.maxSize b text)
    (hproper : (Call.deleteText position nChars).Proper b.textChars) :
    ∃ b' text' k, perform platform b (.deleteText position nChars) = some (b', k) ∧
      Edited platform.maxSize text (.deleteText position nChars) text' k ∧
      Holds platform.maxSize b' text' := by
  rw [perform, realDeleteText_eq b hproper, h.textChars_eq]
  by_cases hzero : min nChars (text.length - position) = 0
  · rw [hzero, if_neg (lt_irrefl 0)]
    exact ⟨b, text, 0, rfl, edited_of_zero hzero, h⟩
  rw [if_pos (Nat.pos_of_ne_zero hzero)]
  obtain ⟨rest, hrest⟩ := h.exists_rest
  obtain ⟨front, mid, back, htext, hfront, hstop, hdrop, hmid⟩ := exists_cut text position nChars
  obtain ⟨count, hcount⟩ : ∃ count, count = min nChars (text.length - position) := ⟨_, rfl⟩
  rw [← hcount] at hstop hmid ⊢
  have hmem : b.text = encode front ++ encode mid ++ (encode back ++ [0]) ++ rest := by
    rw [hrest, htext, encode_append, encode_append]
    simp only [List.append_assoc, List.cons_append, List.nil_append]
  obtain ⟨junk, hjunk, hmove⟩ :=
    Bytes.delete_bytes (encode front) (encode mid) (encode back ++ [0]) rest
  have hbytes : size text = size front + size mid + size back := by
    rw [htext, size_append, size_append]
  have hstart : offsetToPointer b.text position = some (size front) := by
    rw [hrest, offsetToPointer_encode (by omega), hfront]
  have hend : offsetToPointer b.text (position + count) = some (size front + size mid) := by
    rw [hrest, offsetToPointer_encode (by omega), hstop, size_append]
  have hmoved : b.textBytes + 1 - (size front + size mid) = (encode back ++ [0]).length := by
    rw [h.textBytes_eq, List.length_append, ← size]
    show _ = size back + 1
    omega
  refine ⟨⟨encode front ++ (encode back ++ [0]) ++ junk, b.textSize,
    b.textBytes - (size front + size mid - size front), text.length - count⟩, front ++ back, count,
    ?_, ?_, ?_⟩
  · rw [hstart, hend]
    have hmove' : Bytes.memmove b.text (size front) (size front + size mid)
        (encode back ++ [0]).length = some (encode front ++ (encode back ++ [0]) ++ junk) := by
      rw [hmem]
      exact hmove
    simp only [Option.bind_eq_bind, Option.bind_some, hmoved, hmove']
    rfl
  · have hedited := @Edited.deleteText platform.maxSize text position nChars
    rwa [hdrop, hfront, ← hcount] at hedited
  · refine holds_of_eq junk ?_ ?_ ?_ ?_ h.textSize_le
    · rw [encode_append]
      simp only [List.append_assoc, List.cons_append, List.nil_append]
    · rw [← h.length_eq, hmem]
      simp only [List.length_append, hjunk]
      omega
    · show b.textBytes - (size front + size mid - size front) = _
      rw [h.textBytes_eq, hbytes, size_append]
      omega
    · show text.length - count = _
      rw [htext, List.length_append, List.length_append, List.length_append]
      omega

/-! ## Every sequence of calls -/

def step (platform : Platform) (b : Buffer) (c : Call) : Option Buffer :=
  (perform platform b c).map Prod.fst

def ProperAll (platform : Platform) : Buffer → List Call → Prop :=
  Runs.Allowed (step platform) fun b c => c.Proper b.textChars

def Call.IsInsert : Call → Prop
  | .insertText .. => True
  | .deleteText .. => False

theorem ProperAll.tail {b b' : Buffer} {c : Call} {calls : List Call} {k : ℕ}
    (h : ProperAll platform b (c :: calls)) (hfirst : perform platform b c = some (b', k)) :
    ProperAll platform b' calls :=
  h.2 b' (by rw [step, hfirst, Option.map_some])

theorem performAll_cons {b b' b'' : Buffer} {c : Call} {calls : List Call}
    {k : ℕ} {ks : List ℕ} (hfirst : perform platform b c = some (b', k))
    (hrest : performAll platform b' calls = some (b'', ks)) :
    performAll platform b (c :: calls) = some (b'', k :: ks) := by
  rw [performAll, hfirst]
  show (performAll platform b' calls).bind _ = _
  rw [hrest]
  rfl

/-- Once the block exists it holds the text. Induction on the calls. -/
theorem performAll_holds (hplatform : platform.Documented) {calls : List Call} :
    ∀ {b : Buffer} {text : List Char}, Holds platform.maxSize b text → ProperAll platform b calls →
      ∃ b' text' ks, performAll platform b calls = some (b', ks) ∧
        EditedAll platform.maxSize text calls text' ks ∧ Holds platform.maxSize b' text' := by
  induction calls with
  | nil => exact fun {b text} h _ => ⟨b, text, [], rfl, .nil, h⟩
  | cons c calls ih =>
    intro b text h hproper
    have hstep : ∃ b' text' k, perform platform b c = some (b', k) ∧
        Edited platform.maxSize text c text' k ∧ Holds platform.maxSize b' text' := by
      cases c with
      | insertText position chars nChars => exact holds_insertText hplatform h.begins hproper.1
      | deleteText position nChars => exact holds_deleteText h hproper.1
    obtain ⟨b', text', k, hperform, hedited, hholds⟩ := hstep
    obtain ⟨b'', text'', ks, hrest, heditedAll, hholds'⟩ := ih hholds (hproper.tail hperform)
    exact ⟨b'', text'', k :: ks, performAll_cons hperform hrest, .cons hedited heditedAll, hholds'⟩

theorem perform_new_deleteText (platform : Platform)
    (hproper : (Call.deleteText position nChars).Proper 0) :
    perform platform new (.deleteText position nChars) = some (new, 0) ∧
      Edited platform.maxSize [] (.deleteText position nChars) [] 0 := by
  have hzero : min nChars (([] : List Char).length - position) = 0 := by
    rw [List.length_nil, Nat.zero_sub, Nat.min_zero]
  refine ⟨?_, edited_of_zero hzero⟩
  rw [perform, realDeleteText_eq new hproper]
  exact if_neg (Nat.not_lt.mpr hzero.le)

/-- **The block holds the text that the calls make of the empty one** as soon as one of them has been
an insertion; until then there is no block. Every call returns the number of characters it has
inserted or deleted, and none accesses memory beyond the block. -/
theorem performAll_spec {platform : Platform} (hplatform : platform.Documented) {calls : List Call}
    (hproper : ProperAll platform new calls) :
    ∃ b text ks, performAll platform new calls = some (b, ks) ∧
      EditedAll platform.maxSize [] calls text ks ∧
      ((∃ c ∈ calls, c.IsInsert) → Holds platform.maxSize b text) ∧
      ((∀ c ∈ calls, ¬ c.IsInsert) → b = new ∧ text = []) := by
  induction calls with
  | nil => exact ⟨new, [], [], rfl, .nil, fun h => absurd h (by simp), fun _ => ⟨rfl, rfl⟩⟩
  | cons c calls ih =>
    cases c with
    | insertText position chars nChars =>
      obtain ⟨b, text, k, hperform, hedited, hholds⟩ :=
        holds_insertText hplatform (begins_new platform.maxSize) hproper.1
      obtain ⟨b', text', ks, hrest, heditedAll, hholds'⟩ :=
        performAll_holds hplatform hholds (hproper.tail hperform)
      refine ⟨b', text', k :: ks, performAll_cons hperform hrest, .cons hedited heditedAll,
        fun _ => hholds', fun hnone => ?_⟩
      exact absurd trivial (hnone _ List.mem_cons_self)
    | deleteText position nChars =>
      obtain ⟨hperform, hedited⟩ := perform_new_deleteText platform hproper.1
      obtain ⟨b, text, ks, hrest, heditedAll, hsome, hnone⟩ := ih (hproper.tail hperform)
      refine ⟨b, text, 0 :: ks, performAll_cons hperform hrest, .cons hedited heditedAll, ?_, ?_⟩
      · rintro ⟨c, hc, hinsert⟩
        rcases List.mem_cons.mp hc with rfl | hc
        · exact hinsert.elim
        · exact hsome ⟨c, hc, hinsert⟩
      · exact fun h => hnone fun c hc => h c (List.mem_cons_of_mem _ hc)

def clutter : Platform := ⟨65535, fun mem n => mem.take n ++ List.replicate (n - mem.length) 0⟩

theorem clutter_documented : clutter.Documented where
  minSize_le := by decide
  length_realloc mem n := by
    show (mem.take n ++ List.replicate (n - mem.length) 0).length = n
    rw [List.length_append, List.length_take, List.length_replicate]
    omega
  prefix_realloc mem n hle := by
    show mem <+: mem.take n ++ List.replicate (n - mem.length) 0
    rw [List.take_of_length_le hle]
    exact List.prefix_append _ _

/-- Two characters of two bytes are inserted. -/
theorem performAll_spec_twoChars : ProperAll clutter new [.insertText 0 ['é', 'ß', 'x'] 2] ∧
      ∃ b text ks, performAll clutter new [.insertText 0 ['é', 'ß', 'x'] 2] = some (b, ks) ∧
        EditedAll clutter.maxSize [] [.insertText 0 ['é', 'ß', 'x'] 2] text ks ∧
        Holds clutter.maxSize b text := by
  have hproper : ProperAll clutter new [.insertText 0 ['é', 'ß', 'x'] 2] :=
    ⟨⟨by decide, by decide, by decide⟩, fun _ _ => trivial⟩
  obtain ⟨b, text, ks, hperform, hedited, hsome, -⟩ := performAll_spec clutter_documented hproper
  exact ⟨hproper, b, text, ks, hperform, hedited, hsome ⟨_, List.mem_cons_self, trivial⟩⟩

/-- Of the empty buffer something is deleted: there is no byte for a NUL. -/
theorem not_room_deleteText : ProperAll clutter new [.deleteText 0 1] ∧
      ∃ b ks, performAll clutter new [.deleteText 0 1] = some (b, ks) ∧
        ¬ b.textBytes + 1 ≤ b.textSize ∧ b.text[b.textBytes]? ≠ some 0 :=
  ⟨⟨show 0 + 1 < GUINT_RANGE by decide, fun _ _ => trivial⟩, new, [0], by decide, by decide,
    by decide⟩

end ShellSecureTextBuffer
