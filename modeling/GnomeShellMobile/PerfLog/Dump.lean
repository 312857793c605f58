import GnomeShellMobile.Json.Text
import GnomeShellMobile.PerfLog.Log

/-!
# PerfLog — the log as JSON

`shell_perf_log_dump_log`. The strings that are recorded are written as they are: the result of
`escape_quotes` is computed, and freed again.

* `dumpLog`: what is written.
* `decode_dumpLog_iff`: it is the JSON of the log exactly if no string needs an escape.
-/

namespace PerfLog

open Json (IsPlain Plain quote backslash)

@[irreducible] def bytesOf (s : String) : List UInt8 := s.toUTF8.data.toList

def escapeQuotes (input : List UInt8) : List UInt8 :=
  if quote ∈ input then
    input.flatMap fun p => if p = quote then [backslash, quote] else [p]
  else input

namespace Arg

/-- `g_value_get_int`. -/
def getInt : Arg → Int32
  | i n => n
  | _ => 0

/-- `g_value_get_int64`. -/
def getInt64 : Arg → Int64
  | x n => n
  | _ => 0

/-- `g_value_get_string`. -/
def getString : Arg → CString
  | s string => string
  | _ => ⟨[], List.not_mem_nil⟩

end Arg

/-- `ReplayToJsonClosure`, with what is written so far as `out`. -/
structure ReplayToJsonClosure where
  out : List UInt8
  error : Bool
  first : Bool

section

variable (fails : List UInt8 → List UInt8 → Bool)

def writeString (closure : ReplayToJsonClosure) (str : List UInt8) : ReplayToJsonClosure :=
  if fails closure.out str then { closure with error := true }
  else { closure with out := closure.out ++ str }

def eventStr (r : Replayed) : List UInt8 :=
  match r.signature with
  | .none =>
    bytesOf "[" ++ Json.intBytes r.time.toInt ++ bytesOf ", \"" ++ bytesOf r.name ++ bytesOf "\"]"
  | .i =>
    bytesOf "[" ++ Json.intBytes r.time.toInt ++ bytesOf ", \"" ++ bytesOf r.name ++ bytesOf "\", " ++
      Json.intBytes r.arg.getInt.toInt ++ bytesOf "]"
  | .x =>
    bytesOf "[" ++ Json.intBytes r.time.toInt ++ bytesOf ", \"" ++ bytesOf r.name ++ bytesOf "\", " ++
      Json.intBytes r.arg.getInt64.toInt ++ bytesOf "]"
  | .s =>
    -- `escaped` is freed without being used
    let _escaped := escapeQuotes r.arg.getString.1
    bytesOf "[" ++ Json.intBytes r.time.toInt ++ bytesOf ", \"" ++ bytesOf r.name ++
      bytesOf "\", \"" ++ r.arg.getString.1 ++ bytesOf "\"]"

def replayToJson (closure : ReplayToJsonClosure) (r : Replayed) : ReplayToJsonClosure :=
  if closure.error then closure
  else
    let closure := if closure.first then closure else writeString fails closure (bytesOf ",\n  ")
    if closure.error then closure
    else writeString fails { closure with first := false } (eventStr r)

/-- `shell_perf_log_dump_log`: what is written, unless there is an error. -/
def dumpLog (log : Log) : Option (List UInt8) :=
  let closure := writeString fails ⟨[], false, true⟩ (bytesOf "[ ")
  if closure.error then none
  else
    let closure := log.replay.foldl (replayToJson fails) closure
    if closure.error then none
    else
      let closure := writeString fails closure (bytesOf " ]")
      if closure.error then none else some closure.out

end

example : escapeQuotes (bytesOf "a\"b") = bytesOf "a\\\"b" := by decide +kernel

/-! ## What it is meant to be -/

def Arg.values : Arg → List Json.Value
  | none => []
  | s string => [.string string.1]
  | i n => [.number n.toInt]
  | x n => [.number n.toInt]

def Replayed.value (r : Replayed) : Json.Value :=
  .array (.number r.time.toInt :: .string (bytesOf r.name) :: r.arg.values)

def Arg.NeedsNoEscape : Arg → Prop
  | s string => Plain string.1
  | _ => True

instance (arg : Arg) : Decidable arg.NeedsNoEscape :=
  match arg with
  | .s string => inferInstanceAs (Decidable (Plain string.1))
  | .none | .i _ | .x _ => .isTrue trivial

/-! ## The texts of the events -/

def Arg.texts : Arg → List (List UInt8)
  | none => []
  | s string => [Json.stringBytes string.1]
  | i n => [Json.intBytes n.toInt]
  | x n => [Json.intBytes n.toInt]

def Replayed.texts (r : Replayed) : List (List UInt8) :=
  Json.intBytes r.time.toInt :: Json.stringBytes (bytesOf r.name) :: r.arg.texts

theorem two_eq_arrayBytes (a b : List UInt8) :
    [0x5B] ++ a ++ [0x2C, 0x20, quote] ++ b ++ [quote, 0x5D] =
      Json.arrayBytes [0x20] [] [] [a, Json.stringBytes b] := by
  simp [Json.arrayBytes, Json.stringBytes, List.intercalate_cons_cons, List.intercalate_singleton]

theorem three_eq_arrayBytes (a b c : List UInt8) :
    [0x5B] ++ a ++ [0x2C, 0x20, quote] ++ b ++ [quote, 0x2C, 0x20] ++ c ++ [0x5D] =
      Json.arrayBytes [0x20] [] [] [a, Json.stringBytes b, c] := by
  simp [Json.arrayBytes, Json.stringBytes, List.intercalate_cons_cons, List.intercalate_singleton]

theorem string_eq_arrayBytes (a b c : List UInt8) :
    [0x5B] ++ a ++ [0x2C, 0x20, quote] ++ b ++ [quote, 0x2C, 0x20, quote] ++ c ++ [quote, 0x5D] =
      Json.arrayBytes [0x20] [] [] [a, Json.stringBytes b, Json.stringBytes c] := by
  simp [Json.arrayBytes, Json.stringBytes, List.intercalate_cons_cons, List.intercalate_singleton]

theorem bytesOf_eq {s : String} {l : List UInt8} (h : s.toUTF8.data.toList = l) : bytesOf s = l := by
  unfold bytesOf
  exact h

theorem bytesOf_open : bytesOf "[" = [0x5B] := bytesOf_eq rfl

theorem bytesOf_close : bytesOf "]" = [0x5D] := bytesOf_eq rfl

theorem bytesOf_name : bytesOf ", \"" = [0x2C, 0x20, quote] := bytesOf_eq rfl

theorem bytesOf_end : bytesOf "\"]" = [quote, 0x5D] := bytesOf_eq rfl

theorem bytesOf_number : bytesOf "\", " = [quote, 0x2C, 0x20] := bytesOf_eq rfl

theorem bytesOf_string : bytesOf "\", \"" = [quote, 0x2C, 0x20, quote] := bytesOf_eq rfl

theorem eventStr_eq {r : Replayed} (h : r.arg.signature = r.signature) :
    eventStr r = Json.arrayBytes [0x20] [] [] r.texts := by
  obtain ⟨time, name, signature, arg⟩ := r
  change arg.signature = signature at h
  subst h
  cases arg with
  | none =>
    have h := two_eq_arrayBytes (Json.intBytes time.toInt) (bytesOf name)
    rwa [← bytesOf_open, ← bytesOf_name, ← bytesOf_end] at h
  | s string =>
    have h := string_eq_arrayBytes (Json.intBytes time.toInt) (bytesOf name) string.1
    rwa [← bytesOf_string, ← bytesOf_open, ← bytesOf_name, ← bytesOf_end] at h
  | i n =>
    have h := three_eq_arrayBytes (Json.intBytes time.toInt) (bytesOf name) (Json.intBytes n.toInt)
    rwa [← bytesOf_open, ← bytesOf_name, ← bytesOf_number, ← bytesOf_close] at h
  | x n =>
    have h := three_eq_arrayBytes (Json.intBytes time.toInt) (bytesOf name) (Json.intBytes n.toInt)
    rwa [← bytesOf_open, ← bytesOf_name, ← bytesOf_number, ← bytesOf_close] at h

/-! ## The text of the log -/

theorem intercalate_cons (sep t : List UInt8) (ts : List (List UInt8)) :
    sep.intercalate (t :: ts) = t ++ ts.flatMap (sep ++ ·) := by
  induction ts generalizing t with
  | nil => simp [List.intercalate_singleton]
  | cons t' ts ih =>
    rw [List.intercalate_cons_cons, ih, List.flatMap_cons, List.append_assoc, List.append_assoc]

variable {fails : List UInt8 → List UInt8 → Bool} {closure : ReplayToJsonClosure}
  {str bytes : List UInt8} {log : Log} {r : Replayed} {rs : List Replayed}

theorem writeString_eq (h : (writeString fails closure str).error = false) :
    writeString fails closure str = { closure with out := closure.out ++ str } ∧
      closure.error = false := by
  unfold writeString at h ⊢
  split
  · next hfails =>
    rw [if_pos hfails] at h
    cases h
  · next hfails =>
    rw [if_neg hfails] at h
    exact ⟨rfl, h⟩

def withSep (first : Bool) (str : List UInt8) : List UInt8 :=
  if first then str else bytesOf ",\n  " ++ str

theorem replayToJson_eq (h : (replayToJson fails closure r).error = false) :
    replayToJson fails closure r =
        ⟨closure.out ++ withSep closure.first (eventStr r), false, false⟩ ∧
      closure.error = false := by
  obtain ⟨out, error, first⟩ := closure
  cases error with
  | true => cases h
  | false =>
    refine ⟨?_, rfl⟩
    cases first with
    | true => exact (writeString_eq h).1
    | false =>
      unfold replayToJson at h ⊢
      dsimp only at h ⊢
      rw [if_neg Bool.false_ne_true, if_neg Bool.false_ne_true] at h ⊢
      by_cases hsep : (writeString fails ⟨out, false, false⟩ (bytesOf ",\n  ")).error = true
      · rw [if_pos hsep, hsep] at h
        cases h
      · have hwritten := (writeString_eq (Bool.eq_false_iff.mpr hsep)).1
        rw [if_neg hsep, hwritten] at h ⊢
        rw [(writeString_eq h).1, withSep, if_neg Bool.false_ne_true, List.append_assoc]

/-- After the first event there is a comma before every one. Induction on the events. -/
theorem foldl_replayToJson (h : (rs.foldl (replayToJson fails) closure).error = false) :
    closure.error = false ∧ (closure.first = false → (rs.foldl (replayToJson fails) closure).out =
      closure.out ++ (rs.map eventStr).flatMap (bytesOf ",\n  " ++ ·)) := by
  induction rs generalizing closure with
  | nil => exact ⟨h, fun _ => (List.append_nil _).symm⟩
  | cons r rs ih =>
    obtain ⟨herror, hout⟩ := ih h
    obtain ⟨heq, hclosure⟩ := replayToJson_eq herror
    refine ⟨hclosure, fun hfirst => ?_⟩
    rw [List.foldl_cons, hout (by rw [heq]), heq, withSep, hfirst, if_neg Bool.false_ne_true,
      List.map_cons, List.flatMap_cons, List.append_assoc, List.append_assoc]

theorem dumpLog_eq (h : dumpLog fails log = some bytes) :
    bytes = Json.arrayBytes [0x0A, 0x20, 0x20] [0x20] [0x20] (log.replay.map eventStr) := by
  have hopen : bytesOf "[ " = [0x5B, 0x20] := bytesOf_eq rfl
  have hclose : bytesOf " ]" = [0x20, 0x5D] := bytesOf_eq rfl
  have hsep : bytesOf ",\n  " = [0x2C, 0x0A, 0x20, 0x20] := bytesOf_eq rfl
  unfold dumpLog at h
  dsimp only at h
  obtain ⟨hfirst, h⟩ := Option.ite_none_left_eq_some.mp h
  obtain ⟨hreplay, h⟩ := Option.ite_none_left_eq_some.mp h
  obtain ⟨hlast, h⟩ := Option.ite_none_left_eq_some.mp h
  rw [Bool.not_eq_true] at hfirst hreplay hlast
  rw [← Option.some.inj h, (writeString_eq hlast).1, (writeString_eq hfirst).1]
  rw [(writeString_eq hfirst).1] at hreplay
  dsimp only
  cases hlog : log.replay with
  | nil => rw [List.foldl_nil, List.nil_append, hopen, hclose]; rfl
  | cons r rs =>
    rw [hlog, List.foldl_cons] at hreplay
    obtain ⟨herror, hout⟩ := foldl_replayToJson hreplay
    obtain ⟨heq, -⟩ := replayToJson_eq herror
    rw [List.foldl_cons, hout (by rw [heq]), heq]
    simp [withSep, hopen, hclose, hsep, Json.arrayBytes, intercalate_cons]

/-! ## Its elements -/

theorem readArg_signature (signature : Signature) (buffer : List UInt8) :
    (Log.readArg signature buffer).1.signature = signature := by
  cases signature <;> rfl

/-- Every replayed event is defined, and has an argument of its signature. Induction on the turns of
the loop. -/
theorem mem_replayBlock {events : List Event} {turns : ℕ} {buffer : List UInt8} {time : Int64}
    (hr : r ∈ (Log.replayBlock events turns buffer time).1) :
    r.arg.signature = r.signature ∧ ∃ e ∈ events, e.name = r.name := by
  induction turns generalizing buffer time with
  | zero => exact absurd hr List.not_mem_nil
  | succ turns ih =>
    unfold Log.replayBlock at hr
    split at hr
    · exact absurd hr List.not_mem_nil
    · dsimp only at hr
      split at hr
      · exact ih hr
      · split at hr
        · exact absurd hr List.not_mem_nil
        · next event hevent =>
          rcases List.mem_cons.mp hr with rfl | hr
          · exact ⟨readArg_signature _ _, event, List.mem_of_getElem? hevent, rfl⟩
          · exact ih hr

theorem mem_replayBlocks {events : List Event} {blocks : List (List UInt8)} {time : Int64}
    (hr : r ∈ Log.replayBlocks events blocks time) :
    r.arg.signature = r.signature ∧ ∃ e ∈ events, e.name = r.name := by
  induction blocks generalizing time with
  | nil => exact absurd hr List.not_mem_nil
  | cons block blocks ih =>
    rcases List.mem_append.mp hr with hr | hr
    · exact mem_replayBlock hr
    · exact ih hr

theorem forall₂_texts (hname : Plain (bytesOf r.name)) (harg : r.arg.NeedsNoEscape) :
    List.Forall₂ Json.Reads r.texts
      (.number r.time.toInt :: .string (bytesOf r.name) :: r.arg.values) := by
  refine .cons (Json.reads_intBytes _) (.cons (Json.reads_stringBytes hname) ?_)
  cases hr : r.arg with
  | none => exact .nil
  | s string =>
    rw [hr] at harg
    exact .cons (Json.reads_stringBytes harg) .nil
  | i n => exact .cons (Json.reads_intBytes _) .nil
  | x n => exact .cons (Json.reads_intBytes _) .nil

theorem blank_space : Json.Blank [0x20] := by
  intro b hb
  rw [List.mem_singleton.mp hb]
  rfl

theorem blank_nil : Json.Blank [] := fun _ hb => absurd hb List.not_mem_nil

theorem blank_line : Json.Blank [0x0A, 0x20, 0x20] := by
  intro b hb
  simp only [List.mem_cons, List.not_mem_nil, or_false] at hb
  rcases hb with rfl | rfl | rfl <;> rfl

theorem reads_eventStr (hname : Plain (bytesOf r.name)) (hsig : r.arg.signature = r.signature)
    (harg : r.arg.NeedsNoEscape) : Json.Reads (eventStr r) r.value := by
  rw [eventStr_eq hsig]
  exact Json.reads_arrayBytes blank_space blank_nil blank_nil (forall₂_texts hname harg)

theorem skip_eventStr (hsig : r.arg.signature = r.signature) (rest : List UInt8) :
    Json.skip (eventStr r ++ rest) = eventStr r ++ rest := by
  rw [eventStr_eq hsig]
  exact Json.skip_cons (by decide) _

theorem needsNoEscape_of_value (hname : Plain (bytesOf r.name))
    (hsig : r.arg.signature = r.signature) {depth : ℕ} {rest rest' : List UInt8}
    (hdepth : (eventStr r).length ≤ depth) (hclosed : Json.Closed rest)
    (h : Json.value depth (eventStr r ++ rest) = some (r.value, rest')) : r.arg.NeedsNoEscape := by
  cases harg : r.arg with
  | none => trivial
  | i n => trivial
  | x n => trivial
  | s string =>
    have htexts : eventStr r ++ rest = 0x5B :: ([] ++ (Json.intBytes r.time.toInt ++ 0x2C ::
        ([0x20] ++ (Json.stringBytes (bytesOf r.name) ++ 0x2C ::
          ([0x20] ++ quote :: (string.1 ++ quote :: 0x5D :: rest)))))) := by
      rw [eventStr_eq hsig, Replayed.texts, harg, Arg.texts]
      simp [Json.arrayBytes, Json.stringBytes, List.intercalate_cons_cons,
        List.intercalate_singleton]
    have hlength := congrArg List.length htexts
    simp only [List.length_append, List.length_cons] at hlength
    obtain ⟨depth, rfl⟩ : ∃ d, depth = d + 5 := ⟨depth - 5, by omega⟩
    rw [htexts, Replayed.value, harg, Arg.values] at h
    have harray := Json.elements_of_value h
    have hrest := Json.elements_of_comma blank_nil (Json.reads_intBytes _) (by omega) harray
    have hstring := Json.elements_of_comma blank_space (Json.reads_stringBytes hname) (by omega)
      hrest
    obtain ⟨r', hvalue⟩ := Json.value_of_elements hstring
    rw [blank_space.skip_append, Json.skip_cons (by decide)] at hvalue
    exact Json.plain_of_string (hclosed.cons (by decide)) (Json.string_of_value hvalue)

theorem closed_sep (l : List UInt8) : Json.Closed ([0x2C, 0x0A, 0x20, 0x20] ++ l) := by
  have hline : Json.Closed (0x0A :: 0x20 :: 0x20 :: l) := Json.closed_of_lt (by decide) _
  exact hline.cons (by decide)

/-- If the text of the events is read as them, none of their strings needs escapes. Induction on the
events: what comes before the next one ends with a control character, and the last one is followed
by no string. -/
theorem needsNoEscape_of_elements
    (hnames : ∀ r ∈ rs, Plain (bytesOf r.name) ∧ r.arg.signature = r.signature)
    {front rest : List UInt8} (hfront : Json.Blank front) {depth : ℕ}
    (hdepth : (([0x2C, 0x0A, 0x20, 0x20] : List UInt8).intercalate (rs.map eventStr)).length < depth)
    (h : Json.elements depth (front ++ (([0x2C, 0x0A, 0x20, 0x20] : List UInt8).intercalate
      (rs.map eventStr) ++ [0x20, 0x5D])) = some (rs.map Replayed.value, rest)) :
    ∀ r ∈ rs, r.arg.NeedsNoEscape := by
  induction rs generalizing front depth with
  | nil => exact fun r hr => absurd hr List.not_mem_nil
  | cons r rs ih =>
    obtain ⟨hname, hsig⟩ := hnames r List.mem_cons_self
    obtain ⟨depth, rfl⟩ := Nat.exists_eq_succ_of_ne_zero (Nat.ne_zero_of_lt hdepth)
    obtain ⟨r', hvalue⟩ := Json.value_of_elements h
    rw [hfront.skip_append] at hvalue
    cases rs with
    | nil =>
      rw [List.map_singleton, List.intercalate_singleton] at hdepth hvalue
      rw [skip_eventStr hsig] at hvalue
      have hclosed : Json.Closed [0x20, 0x5D] :=
        (Json.closed_nil.cons (by decide)).cons (by decide)
      intro r'' hr''
      rw [List.mem_singleton.mp hr'']
      exact needsNoEscape_of_value hname hsig (Nat.le_of_lt_succ hdepth) hclosed hvalue
    | cons r₂ rs =>
      rw [List.map_cons, List.map_cons, List.intercalate_cons_cons, ← List.map_cons] at hdepth
      rw [List.map_cons, List.map_cons, List.intercalate_cons_cons, ← List.map_cons,
        List.append_assoc, List.append_assoc] at h hvalue
      rw [skip_eventStr hsig] at hvalue
      simp only [List.length_append, List.length_cons] at hdepth
      have hr := needsNoEscape_of_value hname hsig (by omega) (closed_sep _) hvalue
      have hrest := Json.elements_of_comma hfront (reads_eventStr hname hsig hr) (by omega) h
      intro r'' hr''
      rcases List.mem_cons.mp hr'' with rfl | hr''
      · exact hr
      · exact ih (fun r hr => hnames r (List.mem_cons_of_mem _ hr)) blank_line (by omega) hrest
          r'' hr''

/-- The dump is the log as JSON exactly if no string that is replayed needs escapes. -/
theorem decode_dumpLog_iff (hnames : ∀ e ∈ log.events, Plain (bytesOf e.name))
    (h : dumpLog fails log = some bytes) :
    Json.decode bytes = some (.array (log.replay.map Replayed.value)) ↔
      ∀ r ∈ log.replay, r.arg.NeedsNoEscape := by
  have hreplay : ∀ r ∈ log.replay, Plain (bytesOf r.name) ∧ r.arg.signature = r.signature := by
    intro r hr
    obtain ⟨hsig, e, he, hname⟩ := mem_replayBlocks hr
    exact ⟨hname ▸ hnames e he, hsig⟩
  rw [dumpLog_eq h]
  constructor
  · intro hdecode
    have hskip := Json.skip_cons (b := 0x5B) (by decide)
    rw [Json.decode, Json.arrayBytes, List.cons_append, List.cons_append, List.cons_append,
      hskip] at hdecode
    obtain ⟨⟨v, rest⟩, hvalue, hrest⟩ := Option.bind_eq_some_iff.mp hdecode
    obtain ⟨-, hv⟩ := Option.ite_none_right_eq_some.mp hrest
    cases hv
    cases hlog : log.replay with
    | nil => exact fun r hr => absurd hr List.not_mem_nil
    | cons r rs =>
      rw [hlog] at hvalue hreplay
      have helements := Json.elements_of_value hvalue
      rw [List.append_assoc, List.append_assoc, List.singleton_append] at helements
      apply needsNoEscape_of_elements hreplay blank_space _ helements
      rw [List.length_cons, List.length_cons, List.length_append]
      omega
  · intro hargs
    apply Json.Reads.decode
    apply Json.reads_arrayBytes blank_line blank_space blank_space
    rw [List.forall₂_map_left_iff, List.forall₂_map_right_iff, List.forall₂_same]
    exact fun r hr => reads_eventStr (hreplay r hr).1 (hreplay r hr).2 (hargs r hr)

def recordedString (string : CString) : Log :=
  match (Log.new 0).defineEvent "shell.focus" "s" with
  | none => Log.new 0
  | some (log, _) => { log with enabled := true }.eventS 5 "shell.focus" string

theorem decode_dumpLog_iff_twoLetters : ∃ bytes,
    dumpLog (fun _ _ => false) (recordedString ⟨[0x61, 0x62], by decide⟩) = some bytes ∧
      Json.decode bytes =
        some (.array ((recordedString ⟨[0x61, 0x62], by decide⟩).replay.map Replayed.value)) := by
  have hdump : (dumpLog (fun _ _ => false)
      (recordedString ⟨[0x61, 0x62], by decide⟩)).isSome = true := by decide
  obtain ⟨bytes, h⟩ := Option.isSome_iff_exists.mp hdump
  exact ⟨bytes, h, (decode_dumpLog_iff (by decide +kernel) h).mpr (by decide +kernel)⟩

/-- A string that is recorded with a quotation mark ends there. -/
theorem not_decode_dumpLog :
    (∀ e ∈ (recordedString ⟨[0x61, quote, 0x62], by decide⟩).events, Plain (bytesOf e.name)) ∧
    ∃ bytes,
      dumpLog (fun _ _ => false) (recordedString ⟨[0x61, quote, 0x62], by decide⟩) = some bytes ∧
        Json.decode bytes ≠ some (.array
          ((recordedString ⟨[0x61, quote, 0x62], by decide⟩).replay.map Replayed.value)) := by
  refine ⟨by decide +kernel, ?_⟩
  have hdump : (dumpLog (fun _ _ => false)
      (recordedString ⟨[0x61, quote, 0x62], by decide⟩)).isSome = true := by decide
  have hdecode : (dumpLog (fun _ _ => false)
      (recordedString ⟨[0x61, quote, 0x62], by decide⟩)).bind Json.decode = none := by
    decide +kernel
  obtain ⟨bytes, h⟩ := Option.isSome_iff_exists.mp hdump
  rw [h, Option.bind_some] at hdecode
  refine ⟨bytes, h, ?_⟩
  rw [hdecode]
  exact Option.some_ne_none _ |>.symm

end PerfLog
