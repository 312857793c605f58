import GnomeShellMobile.Bytes.Memory
import GnomeShellMobile.Utf8.Basic

/-!
# ShellSecureTextBuffer — the text of a password entry

`ShellSecureTextBuffer` of `shell-secure-text-buffer.c`. The text is a block of secure memory, of
which the bytes and the characters in use are counted. Every access is checked: `none` is a read or a
write beyond a block. What is emitted is left out.
-/

namespace ShellSecureTextBuffer

open Utf8

structure Platform where
  maxSize : ℕ
  realloc : List UInt8 → ℕ → List UInt8

/-- `text` is empty while it is `NULL`. -/
structure Buffer where
  text : List UInt8
  textSize : ℕ
  textBytes : ℕ
  textChars : ℕ
deriving DecidableEq

def MIN_SIZE : ℕ := 16

/-- `shell_secure_text_buffer_new`. -/
def new : Buffer := ⟨[], 0, 0, 0⟩

structure Growth where
  textSize : ℕ
  nBytes : ℕ
  nChars : ℕ

/-- The loop of `shell_secure_text_buffer_real_insert_text`: the size is doubled while it is too
small. At the greatest size what is inserted is cut back, and the loop is left. -/
def grow (maxSize : ℕ) (chars : List UInt8) (textBytes : ℕ) (g : Growth) : Option Growth :=
  if g.nBytes + textBytes + 1 > g.textSize then
    if g.textSize = 0 then
      grow maxSize chars textBytes { g with textSize := MIN_SIZE }
    else if 2 * g.textSize < maxSize then
      grow maxSize chars textBytes { g with textSize := g.textSize * 2 }
    else if g.nBytes > maxSize - textBytes - 1 then
      (findPrevChar chars (maxSize - textBytes - 1 + 1)).map fun nBytes =>
        ⟨maxSize, nBytes, strlen chars nBytes⟩
    else some { g with textSize := maxSize }
  else some g
termination_by (if g.textSize = 0 then 1 else 0, maxSize - g.textSize)
decreasing_by
  · next hzero =>
    rw [if_pos hzero]
    exact Prod.Lex.left _ _ Nat.zero_lt_one
  · next hzero hless =>
    have hnonzero : g.textSize * 2 ≠ 0 := by omega
    rw [if_neg hzero]
    show Prod.Lex _ _ (if g.textSize * 2 = 0 then 1 else 0, maxSize - g.textSize * 2) _
    rw [if_neg hnonzero]
    exact Prod.Lex.right _ (by omega)

/-- `shell_secure_text_buffer_real_insert_text`: the buffer afterwards, and the number returned. -/
def realInsertText (platform : Platform) (self : Buffer) (position : ℕ) (chars : List UInt8)
    (nChars : ℕ) : Option (Buffer × ℕ) := do
  let nBytes ← offsetToPointer chars nChars
  -- need more memory
  let (g, text) ← (if nBytes + self.textBytes + 1 > self.textSize then
      (grow platform.maxSize chars self.textBytes ⟨self.textSize, nBytes, nChars⟩).map fun g =>
        (g, platform.realloc self.text g.textSize)
    else some (⟨self.textSize, nBytes, nChars⟩, self.text))
  -- actual text insertion
  let at' ← offsetToPointer text position
  let text ← Bytes.memmove text (at' + g.nBytes) at' (self.textBytes - at')
  let text ← Bytes.memcpy text at' chars g.nBytes
  -- book keeping
  let textBytes := self.textBytes + g.nBytes
  let text ← Bytes.store text textBytes 0
  return (⟨text, g.textSize, textBytes, self.textChars + g.nChars⟩, g.nChars)

/-- The greatest number of a `guint` and one. -/
def GUINT_RANGE : ℕ := UInt32.size

/-- `shell_secure_text_buffer_real_delete_text`. The sum of the position and the count is one of
`guint`s. -/
def realDeleteText (self : Buffer) (position nChars : ℕ) : Option (Buffer × ℕ) :=
  let position := if position > self.textChars then self.textChars else position
  let nChars :=
    if (position + nChars) % GUINT_RANGE > self.textChars then self.textChars - position else nChars
  if nChars > 0 then do
    let start ← offsetToPointer self.text position
    let stop ← offsetToPointer self.text (position + nChars)
    let text ← Bytes.memmove self.text start stop (self.textBytes + 1 - stop)
    return (⟨text, self.textSize, self.textBytes - (stop - start), self.textChars - nChars⟩, nChars)
  else some (self, nChars)

inductive Call where
  | insertText (position : ℕ) (chars : List Char) (nChars : ℕ)
  | deleteText (position nChars : ℕ)

def perform (platform : Platform) (self : Buffer) : Call → Option (Buffer × ℕ)
  | .insertText position chars nChars =>
    realInsertText platform self position (encode chars ++ [0]) nChars
  | .deleteText position nChars => realDeleteText self position nChars

def performAll (platform : Platform) : Buffer → List Call → Option (Buffer × List ℕ)
  | self, [] => some (self, [])
  | self, c :: calls => do
    let (self, returned) ← perform platform self c
    let (self, later) ← performAll platform self calls
    return (self, returned :: later)

end ShellSecureTextBuffer
