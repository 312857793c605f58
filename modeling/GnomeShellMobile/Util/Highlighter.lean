import Mathlib.Data.List.Basic

/-!
# Util.Highlighter — search terms in bold

`Highlighter` of `js/misc/util.js`. The engine of regular expressions is a parameter, and so are the
two functions that escape; `lastIndex` is the only state of a regular expression. What a call writes
is taken apart into pieces of the text (`Piece`).

* **`loop_spec`**: the loop writes the matches as the engine enumerates them, and what is between
  them.
* **`highlight_marks`**: the headline.
-/

namespace Util.Highlighter

/-! ## The model -/

/-- `match.index` and `match[0].length`. -/
structure Match where
  index : ℕ
  length : ℕ
deriving DecidableEq

/-- A global regular expression: `exec` searches from `lastIndex`. -/
structure RegExp where
  exec : List Char → ℕ → Option Match
  advances : ∀ {text : List Char} {lastIndex : ℕ} {m : Match}, exec text lastIndex = some m →
    lastIndex ≤ m.index ∧ 0 < m.length ∧ m.index + m.length ≤ text.length

/-- `(${escapedTerms.join('|')})`. -/
def alternatives (escapedTerms : List (List Char)) : List Char :=
  '(' :: (['|'].intercalate escapedTerms ++ [')'])

structure Environment where
  /-- `Shell.util_regex_escape`. -/
  regexEscape : List Char → List Char
  /-- `new RegExp(…, 'gi')`, of terms that are not empty. -/
  newRegExp : (source : List Char) →
    (∃ terms, terms ≠ [] ∧ (∀ t ∈ terms, t ≠ []) ∧ source = alternatives terms) → RegExp
  /-- What `GLib.markup_escape_text` writes for a character. -/
  escape : Char → List Char
  escape_lt : ∀ c, '<' ∉ escape c

structure State where
  highlightRegex : Option RegExp := none
  lastIndex : ℕ := 0

variable (env : Environment)

def State.new : Option (List (List Char)) → State
  | none => {}
  | some terms =>
    let escapedTerms := (terms.map env.regexEscape).filter (· ≠ [])
    if h : escapedTerms = [] then {}
    else
      { highlightRegex := some (env.newRegExp (alternatives escapedTerms)
          ⟨_, h, fun _ ht => of_decide_eq_true (List.mem_filter.mp ht).2, rfl⟩) }

def markupEscapeText (text : List Char) : List Char := text.flatMap env.escape

def slice (text : List Char) (start stop : ℕ) : List Char := (text.drop start).take (stop - start)

def bold (l : List Char) : List Char := "<b>".toList ++ l ++ "</b>".toList

/-- The loop of `highlight`, with `escaped` and `lastMatchEnd` at its end. -/
def loop (r : RegExp) (text : List Char) (lastIndex lastMatchEnd : ℕ) (escaped : List (List Char)) :
    List (List Char) × ℕ :=
  match h : r.exec text lastIndex with
  | none => (escaped, lastMatchEnd)
  | some m =>
    have := r.advances h
    let unmatched := if lastMatchEnd < m.index then
      [markupEscapeText env (slice text lastMatchEnd m.index)] else []
    let matched := bold (markupEscapeText env (slice text m.index (m.index + m.length)))
    loop r text (m.index + m.length) (m.index + m.length) (escaped ++ unmatched ++ [matched])
termination_by text.length - lastIndex

/-- The last `exec` has returned null, and set `lastIndex` to 0. -/
def State.highlight (s : State) (text : List Char) : List Char × State :=
  match s.highlightRegex with
  | none => (markupEscapeText env text, s)
  | some r =>
    let (escaped, lastMatchEnd) := loop env r text s.lastIndex 0 []
    ((escaped ++ [markupEscapeText env (text.drop lastMatchEnd)]).flatten,
      { s with lastIndex := 0 })

/-! ## Pieces -/

/-- Repeated `exec`. -/
def matchAll (r : RegExp) (text : List Char) (lastIndex : ℕ) : List Match :=
  match h : r.exec text lastIndex with
  | none => []
  | some m =>
    have := r.advances h
    m :: matchAll r text (m.index + m.length)
termination_by text.length - lastIndex

inductive Piece where
  | unmatched (l : List Char)
  | matched (l : List Char)

def Piece.text : Piece → List Char
  | .unmatched l | .matched l => l

def Piece.render : Piece → List Char
  | .unmatched l => markupEscapeText env l
  | .matched l => bold (markupEscapeText env l)

/-- The matches among pieces that begin at `start`. -/
def matchesFrom (start : ℕ) : List Piece → List Match
  | [] => []
  | .unmatched l :: ps => matchesFrom (start + l.length) ps
  | .matched l :: ps => ⟨start, l.length⟩ :: matchesFrom (start + l.length) ps

def removeTags : List Char → List Char
  | '<' :: 'b' :: '>' :: l => removeTags l
  | '<' :: '/' :: 'b' :: '>' :: l => removeTags l
  | c :: l => c :: removeTags l
  | [] => []

/-- What is asked of the markup for `text`. -/
structure Marks (text : List Char) (found : List Match) (output : List Char) : Prop where
  pieces : ∃ ps : List Piece, ps.flatMap (·.render env) = output ∧ ps.flatMap Piece.text = text ∧
    matchesFrom 0 ps = found
  bare : removeTags output = markupEscapeText env text

/-! ## The loop -/

variable {env} {r : RegExp} {text : List Char} {i : ℕ}

theorem slice_append {i j k : ℕ} (hij : i ≤ j) (hjk : j ≤ k) :
    slice text i j ++ slice text j k = slice text i k := by
  have hdrop : text.drop j = (text.drop i).drop (j - i) := by
    rw [List.drop_drop]
    congr 1
    omega
  have hlength : k - i = (j - i) + (k - j) := by omega
  rw [slice, slice, slice, hdrop, hlength, List.take_add]

theorem length_slice {j : ℕ} (hj : j ≤ text.length) : (slice text i j).length = j - i := by
  rw [slice, List.length_take, List.length_drop]
  omega

theorem slice_self (text : List Char) (i : ℕ) : slice text i i = [] := by
  rw [slice, Nat.sub_self, List.take_zero]

theorem slice_drop (text : List Char) (i : ℕ) :
    slice text 0 i ++ text.drop i = text := by
  rw [slice, List.drop_zero, Nat.sub_zero, List.take_append_drop]

theorem loop_none {last : ℕ} {escaped : List (List Char)} (h : r.exec text i = none) :
    loop env r text i last escaped = (escaped, last) := by
  rw [loop]
  split
  · rfl
  · next m hm => exact absurd (h.symm.trans hm) (Option.some_ne_none m).symm

theorem loop_some {m : Match} {last : ℕ} {escaped : List (List Char)} (h : r.exec text i = some m) :
    loop env r text i last escaped = loop env r text (m.index + m.length) (m.index + m.length)
      (escaped ++ (if last < m.index then [markupEscapeText env (slice text last m.index)] else []) ++
        [bold (markupEscapeText env (slice text m.index (m.index + m.length)))]) := by
  rw [loop]
  split
  · next hnone => exact absurd (hnone.symm.trans h) (Option.some_ne_none m).symm
  · next m' hm =>
    obtain rfl := Option.some.inj (hm.symm.trans h)
    rfl

theorem matchAll_none (h : r.exec text i = none) : matchAll r text i = [] := by
  rw [matchAll]
  split
  · rfl
  · next m hm => exact absurd (h.symm.trans hm) (Option.some_ne_none m).symm

theorem matchAll_some {m : Match} (h : r.exec text i = some m) :
    matchAll r text i = m :: matchAll r text (m.index + m.length) := by
  rw [matchAll]
  split
  · next hnone => exact absurd (hnone.symm.trans h) (Option.some_ne_none m).symm
  · next m' hm =>
    obtain rfl := Option.some.inj (hm.symm.trans h)
    rfl

def gap (text : List Char) (i j : ℕ) : List Piece :=
  if i < j then [.unmatched (slice text i j)] else []

theorem gap_text {j : ℕ} (hij : i ≤ j) : (gap text i j).flatMap Piece.text = slice text i j := by
  unfold gap
  split
  · exact List.append_nil _
  · next hlt =>
    obtain rfl : i = j := by omega
    exact (slice_self text i).symm

theorem gap_render {j : ℕ} : (gap text i j).flatMap (·.render env) =
    (if i < j then [markupEscapeText env (slice text i j)] else []).flatten := by
  unfold gap
  split
  · rfl
  · rfl

theorem matchesFrom_gap {j : ℕ} (hij : i ≤ j) (hj : j ≤ text.length) (ps : List Piece) :
    matchesFrom i (gap text i j ++ ps) = matchesFrom j ps := by
  unfold gap
  split
  · rw [List.cons_append, matchesFrom, length_slice hj, List.nil_append]
    congr 1
    omega
  · next hlt =>
    obtain rfl : i = j := by omega
    rfl

/-- **The loop**, from a match to the next one. Induction on what is left of the text. -/
theorem loop_spec (hi : i ≤ text.length) (escaped : List (List Char)) :
    ∃ (ps : List Piece) (stop : ℕ), i ≤ stop ∧ stop ≤ text.length ∧
      (loop env r text i i escaped).2 = stop ∧
      (loop env r text i i escaped).1.flatten = escaped.flatten ++ ps.flatMap (·.render env) ∧
      ps.flatMap Piece.text = slice text i stop ∧ ∀ rest,
        matchesFrom i (ps ++ rest) = matchAll r text i ++ matchesFrom stop rest := by
  induction i using matchAll.induct r text generalizing escaped with
  | case1 i hnone =>
    refine ⟨[], i, Nat.le_refl i, hi, ?_, ?_, ?_, ?_⟩
    · rw [loop_none hnone]
    · rw [loop_none hnone, List.flatMap_nil, List.append_nil]
    · rw [slice_self, List.flatMap_nil]
    · intro rest
      rw [matchAll_none hnone, List.nil_append, List.nil_append]
  | case2 i m hm hadvances ih =>
    obtain ⟨hindex, hpos, hlen⟩ := r.advances hm
    obtain ⟨ps, stop, hle, hstop, hlast, hrender, htext, hmatches⟩ := ih hlen (escaped ++
      (if i < m.index then [markupEscapeText env (slice text i m.index)] else []) ++
      [bold (markupEscapeText env (slice text m.index (m.index + m.length)))])
    refine ⟨gap text i m.index ++ .matched (slice text m.index (m.index + m.length)) :: ps, stop,
      by omega, hstop, ?_, ?_, ?_, ?_⟩
    · rw [loop_some hm, hlast]
    · rw [loop_some hm, hrender, List.flatMap_append, gap_render]
      simp [Piece.render]
    · rw [List.flatMap_append, gap_text hindex, List.flatMap_cons, Piece.text, htext,
        slice_append (by omega) hle, slice_append hindex (by omega)]
    · intro rest
      rw [List.append_assoc, matchesFrom_gap hindex (by omega), List.cons_append, matchesFrom,
        length_slice hlen, Nat.add_sub_cancel_left, hmatches, matchAll_some hm, List.cons_append]

/-! ## Tags -/

theorem removeTags_append {l : List Char} (h : '<' ∉ l) (rest : List Char) :
    removeTags (l ++ rest) = l ++ removeTags rest := by
  induction l with
  | nil => rfl
  | cons c l ih =>
    obtain ⟨hc, hl⟩ := not_or.mp (mt List.mem_cons.mpr h)
    rw [List.cons_append, removeTags, ih hl, List.cons_append]
    · intro tail heq
      exact absurd heq.symm hc
    · intro tail heq
      exact absurd heq.symm hc

theorem lt_notMem_markupEscapeText (l : List Char) : '<' ∉ markupEscapeText env l := by
  intro hmem
  obtain ⟨c, -, hc⟩ := List.mem_flatMap.mp hmem
  exact env.escape_lt c hc

theorem removeTags_render (ps : List Piece) :
    removeTags (ps.flatMap (·.render env)) = markupEscapeText env (ps.flatMap Piece.text) := by
  induction ps with
  | nil => rfl
  | cons p ps ih =>
    rw [List.flatMap_cons, List.flatMap_cons, markupEscapeText, List.flatMap_append]
    change _ = markupEscapeText env p.text ++ markupEscapeText env _
    rw [← ih]
    cases p with
    | unmatched l => exact removeTags_append (lt_notMem_markupEscapeText l) _
    | matched l =>
      have hopen : ∀ rest, removeTags ("<b>".toList ++ rest) = removeTags rest := fun rest => by
        change removeTags ('<' :: 'b' :: '>' :: rest) = _
        rw [removeTags]
      have hclose : ∀ rest, removeTags ("</b>".toList ++ rest) = removeTags rest := fun rest => by
        change removeTags ('<' :: '/' :: 'b' :: '>' :: rest) = _
        rw [removeTags]
      change removeTags ("<b>".toList ++ _ ++ "</b>".toList ++ _) = _
      rw [List.append_assoc, List.append_assoc, hopen,
        removeTags_append (lt_notMem_markupEscapeText l), hclose]
      rfl

/-! ## The result -/

/-- What a fresh `exec` enumerates. -/
def State.found (s : State) (text : List Char) : List Match :=
  s.highlightRegex.elim [] (matchAll · text 0)

theorem marks_of_pieces {found : List Match} {ps : List Piece}
    (htext : ps.flatMap Piece.text = text)
    (hfound : matchesFrom 0 ps = found) : Marks env text found (ps.flatMap (·.render env)) where
  pieces := ⟨ps, rfl, htext, hfound⟩
  bare := by rw [removeTags_render, htext]

theorem highlight_of_reset {s : State} (h : s.lastIndex = 0) (text : List Char) :
    Marks env text (s.found text) (s.highlight env text).1 ∧ (s.highlight env text).2 = s := by
  obtain ⟨regex, lastIndex⟩ := s
  obtain rfl : lastIndex = 0 := h
  cases regex with
  | none =>
    have hmarks : Marks env text [] ([Piece.unmatched text].flatMap (·.render env)) :=
      marks_of_pieces (List.append_nil text) rfl
    rw [List.flatMap_cons, List.flatMap_nil, List.append_nil] at hmarks
    exact ⟨hmarks, rfl⟩
  | some r =>
    obtain ⟨ps, stop, -, -, hlast, hrender, htext, hmatches⟩ :=
      @loop_spec env r text 0 (Nat.zero_le _) []
    have houtput : (State.highlight env ⟨some r, 0⟩ text).1 =
        (ps ++ [Piece.unmatched (text.drop stop)]).flatMap (·.render env) := by
      change ((loop env r text 0 0 []).1 ++ [_]).flatten = _
      rw [List.flatten_append, hrender, List.flatMap_append, hlast]
      simp [Piece.render]
    rw [houtput]
    refine ⟨marks_of_pieces ?_ ?_, rfl⟩
    · rw [List.flatMap_append, htext]
      exact (congrArg _ (List.append_nil _)).trans (slice_drop text stop)
    · rw [hmatches]
      exact List.append_nil _

/-- **Highlighting.** After any calls, the next one writes what a new highlighter writes. -/
theorem highlight_marks (terms : Option (List (List Char))) (texts : List (List Char))
    (text : List Char) :
    let s := texts.foldl (fun (s : State) t => (s.highlight env t).2) (.new env terms)
    s = .new env terms ∧ Marks env text (s.found text) (s.highlight env text).1 := by
  have hnew : (State.new env terms).lastIndex = 0 := by
    cases terms with
    | none => rfl
    | some terms =>
      dsimp only [State.new]
      split
      · rfl
      · rfl
  have hkept : texts.foldl (fun (s : State) t => (s.highlight env t).2) (.new env terms) =
      .new env terms := by
    induction texts with
    | nil => rfl
    | cons t texts ih => rw [List.foldl_cons, (highlight_of_reset hnew t).2, ih]
  dsimp only
  rw [hkept]
  exact ⟨rfl, (highlight_of_reset hnew text).1⟩

def findChar (p : Char → Bool) : RegExp where
  exec text lastIndex := ((text.drop lastIndex).findIdx? p).map fun k => ⟨lastIndex + k, 1⟩
  advances h := by
    obtain ⟨k, hk, rfl⟩ := Option.map_eq_some_iff.mp h
    have hlt := (List.findIdx?_eq_some_iff_findIdx_eq.mp hk).1
    rw [List.length_drop] at hlt
    dsimp only
    omega

def plain : Environment where
  regexEscape := id
  newRegExp source _ := findChar (· == source.getD 1 'x')
  escape c := if c = '<' then "&lt;".toList else if c = '\'' then "&apos;".toList else [c]
  escape_lt c := by
    split
    · decide
    split
    · decide
    · next h _ => exact fun hmem => h (List.mem_singleton.mp hmem).symm

/-- Another text before. -/
theorem highlight_marks_dont : let s := State.new plain (some ["t".toList])
    Marks plain "Don't".toList (s.found "Don't".toList) (s.highlight plain "Don't".toList).1 := by
  have h := @highlight_marks plain (some ["t".toList]) ["t<t".toList] "Don't".toList
  dsimp only at h ⊢
  rw [h.1] at h
  exact h.2

end Util.Highlighter
