import GnomeShellMobile.Dict.Basic
import Mathlib.Data.List.Induction
import Mathlib.Data.List.TakeWhile

/-!
# ShellAppSystem — from the `StartupWMClass` to the id

`scan_startup_wm_class_to_id` of `src/shell-app-system.c`: one pass over the installed desktop files,
in which a later file may replace the one chosen before. Strings are their bytes, without the zero at
the end. The list has each id once: of two files with one id, GIO lists the first.

## The architecture

* **`chosen`** — what the pass does to the files of one class, on the files themselves and not on
  their ids; `get?_scan` is the refinement.
* **`chosenFrom_spec`** — after the last exact match only the visibility counts.
* **`prefers_iff_orderly`** — the choice is the right one if and only if a last exact match that is
  hidden takes no better one's place.
* **`scan_iff`** — the headline, for one order and for all orders.
-/

namespace ShellAppSystem

structure DesktopFile where
  id : List UInt8
  startupWmClass : Option (List UInt8)
  shouldShow : Bool
deriving DecidableEq

def desktopSuffix : List UInt8 := [0x2E, 0x64, 0x65, 0x73, 0x6B, 0x74, 0x6F, 0x70]

def startupWmClassIsExactMatch (id wmClass : List UInt8) : Bool :=
  if !wmClass.isPrefixOf id then false
  else
    let rest := id.drop wmClass.length
    rest.isEmpty || rest == desktopSuffix

structure Scan where
  startupWmClassToId : Dict (List UInt8) (List UInt8)
  noShowIds : List (List UInt8)

def Scan.visit (s : Scan) (info : DesktopFile) : Scan :=
  match info.startupWmClass with
  | none => s
  | some wmClass =>
    let noShowIds := if info.shouldShow then s.noShowIds else s.noShowIds ++ [info.id]
    let oldId := s.startupWmClassToId.get? wmClass
    let oldId := if startupWmClassIsExactMatch info.id wmClass then none else oldId
    -- priority to the desktop files that should be shown
    let oldId := oldId.filter fun old => !(info.shouldShow && noShowIds.contains old)
    match oldId with
    | none => ⟨s.startupWmClassToId.set wmClass info.id, noShowIds⟩
    | some _ => ⟨s.startupWmClassToId, noShowIds⟩

variable (all : List DesktopFile)

def scan : Scan := all.foldl Scan.visit ⟨.empty, []⟩

def scanStartupWmClassToId : Dict (List UInt8) (List UInt8) :=
  (scan all).startupWmClassToId

/-! ## What it is meant to choose -/

variable (wmClass : List UInt8)

def filesOf (all : List DesktopFile) : List DesktopFile :=
  all.filter (·.startupWmClass = some wmClass)

def DesktopFile.exact (info : DesktopFile) : Bool :=
  startupWmClassIsExactMatch info.id wmClass

variable (files : List DesktopFile)

structure Preferred (info : DesktopFile) : Prop where
  mem : info ∈ files
  shown : ∀ f ∈ files, f.shouldShow → info.shouldShow
  exact : ∀ f ∈ files, f.shouldShow = info.shouldShow → f.exact wmClass → info.exact wmClass

def Prefers : Prop :=
  ∀ wmClass, filesOf wmClass all ≠ [] → ∃ info, Preferred wmClass (filesOf wmClass all) info ∧
    (scanStartupWmClassToId all).get? wmClass = some info.id

/-- Whether the file that a class is mapped to should be shown, and whether it is an exact match. -/
def kindOf (wmClass : List UInt8) : Option (Bool × Bool) :=
  ((scanStartupWmClassToId all).get? wmClass).bind fun id =>
    (all.find? (·.id = id)).map fun info => (info.shouldShow, info.exact wmClass)

def Orderly : Prop :=
  match files.reverse.dropWhile (!·.exact wmClass) with
  | [] => True
  | last :: before => last.shouldShow = false → ∀ f ∈ before, f.shouldShow →
      f.exact wmClass = false ∧ ∃ g ∈ files.reverse.takeWhile (!·.exact wmClass), g.shouldShow

instance : Decidable (Orderly wmClass files) := by
  unfold Orderly
  split <;> infer_instance

def Unanimous : Prop :=
  ∀ f ∈ files, f.exact wmClass → f.shouldShow = false → ∀ g ∈ files, g.shouldShow = false

/-! ## The pass over the files of one class -/

def DesktopFile.replaces (info old : DesktopFile) : Bool :=
  info.exact wmClass || (info.shouldShow && !old.shouldShow)

def chosenFrom (old : DesktopFile) (files : List DesktopFile) : DesktopFile :=
  files.foldl (fun old info => if info.replaces wmClass old then info else old) old

def chosen : List DesktopFile → Option DesktopFile
  | [] => none
  | first :: files => some (chosenFrom wmClass first files)

variable {wmClass : List UInt8} {old info first : DesktopFile} {files all : List DesktopFile}

theorem chosenFrom_mem : chosenFrom wmClass old files ∈ old :: files := by
  induction files generalizing old with
  | nil => exact List.mem_cons_self
  | cons f files ih =>
    have h := @ih (if f.replaces wmClass old then f else old)
    split at h
    · next hreplaces =>
      rw [chosenFrom, List.foldl_cons, if_pos hreplaces]
      exact List.mem_cons_of_mem _ h
    · next hreplaces =>
      rw [chosenFrom, List.foldl_cons, if_neg hreplaces]
      rcases List.mem_cons.mp h with h | h
      · exact List.mem_cons.mpr (.inl h)
      · exact List.mem_cons_of_mem _ (List.mem_cons_of_mem _ h)

theorem chosen_append (files : List DesktopFile) (info : DesktopFile) :
    chosen wmClass (files ++ [info]) = some (match chosen wmClass files with
      | none => info
      | some old => if info.replaces wmClass old then info else old) := by
  cases files with
  | nil => rfl
  | cons first files =>
    show some (chosenFrom wmClass first (files ++ [info])) = _
    rw [chosenFrom, List.foldl_append]
    rfl

theorem mem_of_chosen (h : chosen wmClass files = some info) : info ∈ files := by
  cases files with
  | nil => cases h
  | cons first files => exact Option.some.inj h ▸ chosenFrom_mem

/-! ## The pass over all files

What the map holds after some of the files is what the pass over the files of each class chooses. -/

structure Scanned (all : List DesktopFile) (s : Scan) : Prop where
  get? : ∀ wmClass, s.startupWmClassToId.get? wmClass =
    (chosen wmClass (filesOf wmClass all)).map (·.id)
  noShowIds : ∀ id, id ∈ s.noShowIds ↔
    ∃ f ∈ all, f.startupWmClass ≠ none ∧ f.shouldShow = false ∧ f.id = id

theorem mem_filesOf : info ∈ filesOf wmClass all ↔ info ∈ all ∧ info.startupWmClass = some wmClass := by
  rw [filesOf, List.mem_filter, decide_eq_true_eq]

theorem filesOf_append_self (h : info.startupWmClass = some wmClass) :
    filesOf wmClass (all ++ [info]) = filesOf wmClass all ++ [info] := by
  rw [filesOf, List.filter_append]
  simp [filesOf, h]

theorem filesOf_append_of_ne (h : info.startupWmClass ≠ some wmClass) :
    filesOf wmClass (all ++ [info]) = filesOf wmClass all := by
  rw [filesOf, List.filter_append]
  simp [filesOf, h]

theorem Scanned.contains_iff {s : Scan} (h : Scanned all s) (hids : (all.map (·.id)).Nodup)
    (hold : old ∈ filesOf wmClass all) : s.noShowIds.contains old.id = !old.shouldShow := by
  obtain ⟨hmem, hclass⟩ := mem_filesOf.mp hold
  rw [Bool.eq_iff_iff, List.contains_iff_mem, h.noShowIds, Bool.not_eq_true']
  constructor
  · intro ⟨f, hf, _, hhidden, hid⟩
    rwa [List.inj_on_of_nodup_map hids hf hmem hid] at hhidden
  · intro hhidden
    exact ⟨old, hmem, by rw [hclass]; exact Option.some_ne_none _, hhidden, rfl⟩

theorem Scanned.visit_noShowIds {s : Scan} (h : Scanned all s)
    (hclass : info.startupWmClass = some wmClass) (id : List UInt8) :
    id ∈ (if info.shouldShow then s.noShowIds else s.noShowIds ++ [info.id]) ↔
      ∃ f ∈ all ++ [info], f.startupWmClass ≠ none ∧ f.shouldShow = false ∧ f.id = id := by
  have hne : info.startupWmClass ≠ none := by
    rw [hclass]
    exact Option.some_ne_none _
  cases hshow : info.shouldShow with
  | true =>
    rw [if_pos rfl, h.noShowIds]
    constructor
    · intro ⟨f, hf, hrest⟩
      exact ⟨f, List.mem_append_left _ hf, hrest⟩
    · intro ⟨f, hf, hfclass, hhidden, hid⟩
      rcases List.mem_append.mp hf with hf | hf
      · exact ⟨f, hf, hfclass, hhidden, hid⟩
      · rw [List.mem_singleton.mp hf, hshow] at hhidden
        cases hhidden
  | false =>
    rw [if_neg Bool.false_ne_true, List.mem_append, h.noShowIds, List.mem_singleton]
    constructor
    · intro hid
      cases hid with
      | inl hid =>
        obtain ⟨f, hf, hrest⟩ := hid
        exact ⟨f, List.mem_append_left _ hf, hrest⟩
      | inr hid =>
        exact ⟨info, List.mem_append_right _ (List.mem_singleton_self _), hne, hshow, hid.symm⟩
    · intro ⟨f, hf, hrest⟩
      rcases List.mem_append.mp hf with hf | hf
      · exact .inl ⟨f, hf, hrest⟩
      · rw [List.mem_singleton.mp hf] at hrest
        exact .inr hrest.2.2.symm

theorem Scanned.visit {s : Scan} (h : Scanned all s) (hids : (all.map (·.id)).Nodup)
    (hclass : info.startupWmClass = some wmClass) :
    (s.visit info).startupWmClassToId = (match chosen wmClass (filesOf wmClass all) with
      | none => s.startupWmClassToId.set wmClass info.id
      | some old =>
        if info.replaces wmClass old then s.startupWmClassToId.set wmClass info.id
        else s.startupWmClassToId) := by
  unfold Scan.visit
  rw [hclass]
  dsimp only
  rw [h.get? wmClass]
  cases hchosen : chosen wmClass (filesOf wmClass all) with
  | none =>
    simp only [Option.map_none, ite_self, Option.filter_none]
  | some old =>
    have hhidden := h.contains_iff hids (mem_of_chosen hchosen)
    dsimp only [Option.map_some]
    by_cases hexact : startupWmClassIsExactMatch info.id wmClass = true
    · have hreplaces : info.replaces wmClass old = true := by
        rw [DesktopFile.replaces, DesktopFile.exact, hexact, Bool.true_or]
      rw [if_pos hexact, Option.filter_none, if_pos hreplaces]
    · have hreplaces : info.replaces wmClass old = (info.shouldShow && !old.shouldShow) := by
        rw [DesktopFile.replaces, DesktopFile.exact, Bool.eq_false_iff.mpr hexact, Bool.false_or]
      rw [if_neg hexact]
      by_cases hshow : info.shouldShow = true
      · simp only [hreplaces, hshow, if_true, Option.filter_some, hhidden, Bool.true_and, Bool.not_not]
        cases old.shouldShow <;> rfl
      · rw [Bool.not_eq_true] at hshow
        simp only [hreplaces, hshow, Bool.false_and, Bool.not_false, Option.filter_some, if_true,
          Bool.false_eq_true, if_false]

theorem scanned (hids : (all.map (·.id)).Nodup) : Scanned all (scan all) := by
  induction all using List.reverseRecOn with
  | nil => exact ⟨fun _ => rfl, fun id => by simp [scan]⟩
  | append_singleton all info ih =>
    rw [List.map_append] at hids
    have hids := hids.of_append_left
    have h := ih hids
    have hscan : scan (all ++ [info]) = (scan all).visit info := by
      rw [scan, List.foldl_append]
      rfl
    rw [hscan]
    cases hclass : info.startupWmClass with
    | none =>
      have hvisit : (scan all).visit info = scan all := by
        unfold Scan.visit
        rw [hclass]
      rw [hvisit]
      constructor
      · intro wmClass
        rw [filesOf_append_of_ne (by rw [hclass]; exact (Option.some_ne_none _).symm), h.get?]
      · intro id
        rw [h.noShowIds]
        constructor
        · intro ⟨f, hf, hrest⟩
          exact ⟨f, List.mem_append_left _ hf, hrest⟩
        · intro ⟨f, hf, hfclass, hrest⟩
          rcases List.mem_append.mp hf with hf | hf
          · exact ⟨f, hf, hfclass, hrest⟩
          · rw [List.mem_singleton.mp hf, hclass] at hfclass
            exact absurd rfl hfclass
    | some c =>
      constructor
      · intro wmClass
        rw [h.visit hids hclass]
        by_cases hc : wmClass = c
        · -- the class of the file that is visited
          subst hc
          rw [filesOf_append_self hclass, chosen_append]
          cases hchosen : chosen wmClass (filesOf wmClass all) with
          | none => exact Dict.get?_set_self _ _ _
          | some old =>
            dsimp only
            split
            · exact Dict.get?_set_self _ _ _
            · rw [h.get?, hchosen]
        · -- another class
          rw [filesOf_append_of_ne (by rw [hclass]; exact fun h => hc (Option.some.inj h).symm),
            ← h.get?]
          split
          · exact Dict.get?_set_of_ne _ _ hc
          · split
            · exact Dict.get?_set_of_ne _ _ hc
            · rfl
      · intro id
        rw [← h.visit_noShowIds hclass id]
        unfold Scan.visit
        rw [hclass]
        dsimp only
        split <;> rfl

theorem get?_scan (hids : (all.map (·.id)).Nodup) (wmClass : List UInt8) :
    (scanStartupWmClassToId all).get? wmClass =
      (chosen wmClass (filesOf wmClass all)).map (·.id) := (scanned hids).get? wmClass

/-! ## The last exact match

The files of a class are the ones before the last exact match, that match, and the ones after it. The
match replaces whatever was chosen before it, and after it a file is replaced only by one that should
be shown. -/

theorem chosen_isSome (h : files ≠ []) : (chosen wmClass files).isSome := by
  cases files with
  | nil => exact absurd rfl h
  | cons first files => rfl

theorem chosenFrom_spec (hnone : ∀ f ∈ files, f.exact wmClass = false) :
    if old.shouldShow = true ∨ ∀ f ∈ files, f.shouldShow = false then
      chosenFrom wmClass old files = old
    else chosenFrom wmClass old files ∈ files ∧ (chosenFrom wmClass old files).shouldShow = true := by
  induction files generalizing old with
  | nil => rw [if_pos (.inr fun _ hf => absurd hf List.not_mem_nil)]; rfl
  | cons f files ih =>
    have hrest := fun g hg => hnone g (List.mem_cons_of_mem _ hg)
    have hreplaces : f.replaces wmClass old = (f.shouldShow && !old.shouldShow) := by
      rw [DesktopFile.replaces, hnone f List.mem_cons_self, Bool.false_or]
    rw [chosenFrom, List.foldl_cons, ← chosenFrom]
    by_cases hold : old.shouldShow = true
    · have hkeep : ¬f.replaces wmClass old = true := by simp [hreplaces, hold]
      rw [if_pos (.inl hold), if_neg hkeep]
      simpa [hold] using @ih old hrest
    · by_cases hf : f.shouldShow = true
      · -- `f` is chosen, and stays
        have hreplace : f.replaces wmClass old = true := by simp [hreplaces, hold, hf]
        have hnot : ¬(old.shouldShow = true ∨ ∀ g ∈ f :: files, g.shouldShow = false) := by
          simp [hold, hf]
        rw [if_neg hnot, if_pos hreplace]
        have hstays := @ih f hrest
        rw [if_pos (.inl hf)] at hstays
        rw [hstays]
        exact ⟨List.mem_cons_self, hf⟩
      · have hkeep : ¬f.replaces wmClass old = true := by simp [hreplaces, hf]
        rw [if_neg hkeep]
        have hsame := @ih old hrest
        have hiff : (∀ g ∈ f :: files, g.shouldShow = false) ↔
            ∀ g ∈ files, g.shouldShow = false := by simp [hf]
        simp only [hold, hiff] at hsame ⊢
        split at hsame
        · next h => rw [if_pos h]; exact hsame
        · next h => rw [if_neg h]; exact ⟨List.mem_cons_of_mem _ hsame.1, hsame.2⟩

theorem chosen_split {before after : List DesktopFile} (hexact : info.exact wmClass = true) :
    chosen wmClass (before ++ info :: after) = some (chosenFrom wmClass info after) := by
  cases before with
  | nil => rfl
  | cons first before =>
    show some (chosenFrom wmClass first (before ++ info :: after)) = _
    have hreplaces : ∀ o, info.replaces wmClass o = true := fun o => by
      rw [DesktopFile.replaces, hexact, Bool.true_or]
    rw [chosenFrom, List.foldl_append, List.foldl_cons, if_pos (hreplaces _), ← chosenFrom]

theorem split_or (wmClass : List UInt8) (files : List DesktopFile) :
    ((∀ f ∈ files, f.exact wmClass = false) ∧ Orderly wmClass files) ∨
      ∃ before last after, files = before ++ last :: after ∧ last.exact wmClass = true ∧
        (∀ f ∈ after, f.exact wmClass = false) ∧
        (Orderly wmClass files ↔ (last.shouldShow = false → ∀ f ∈ before, f.shouldShow = true →
          f.exact wmClass = false ∧ ∃ g ∈ after, g.shouldShow = true)) := by
  have happend := List.takeWhile_append_dropWhile (p := (!·.exact wmClass)) (l := files.reverse)
  have hafter : ∀ f ∈ files.reverse.takeWhile (!·.exact wmClass), f.exact wmClass = false := by
    intro f hf
    simpa using List.mem_takeWhile_imp hf
  cases hdrop : files.reverse.dropWhile (!·.exact wmClass) with
  | nil =>
    left
    rw [hdrop, List.append_nil] at happend
    constructor
    · intro f hf
      apply hafter
      rw [happend]
      exact List.mem_reverse.mpr hf
    · rw [Orderly, hdrop]
      exact trivial
  | cons last before =>
    right
    rw [hdrop] at happend
    refine ⟨before.reverse, last, (files.reverse.takeWhile (!·.exact wmClass)).reverse, ?_, ?_, ?_, ?_⟩
    · calc files
          = (files.reverse.takeWhile (!·.exact wmClass) ++ last :: before).reverse := by
            rw [happend, List.reverse_reverse]
        _ = _ := by
            rw [List.reverse_append, List.reverse_cons, List.append_assoc, List.singleton_append]
    · have hhead := List.head_dropWhile_not (!·.exact wmClass) (l := files.reverse)
      simp only [hdrop, List.head_cons, Bool.not_eq_false'] at hhead
      exact hhead (List.cons_ne_nil _ _)
    · intro f hf
      exact hafter f (List.mem_reverse.mp hf)
    · rw [Orderly, hdrop]
      simp only [List.mem_reverse]

theorem preferred_of_none (h : chosen wmClass files = some info)
    (hnone : ∀ f ∈ files, f.exact wmClass = false) : Preferred wmClass files info := by
  cases files with
  | nil => cases h
  | cons first files =>
    have hinfo : chosenFrom wmClass first files = info := Option.some.inj h
    have hspec := @chosenFrom_spec _ first files fun f hf => hnone f (List.mem_cons_of_mem _ hf)
    have hmem : info ∈ first :: files := mem_of_chosen h
    rw [hinfo] at hspec
    refine ⟨hmem, ?_, fun f hf _ hexact => ?_⟩
    · intro f hf hshow
      split at hspec
      · next hor =>
        rw [hspec]
        cases hor with
        | inl hfirst => exact hfirst
        | inr hhidden =>
          cases List.mem_cons.mp hf with
          | inl hf => exact hf ▸ hshow
          | inr hf => exact absurd hshow (by rw [hhidden f hf]; decide)
      · exact hspec.2
    · exact absurd hexact (by rw [hnone f hf]; decide)

/-- The file that the pass chooses is a preferred one if and only if the files come in an order that
allows it. The cases are the two kinds of file that can be chosen after the last exact match. -/
theorem preferred_iff_orderly (h : chosen wmClass files = some info) :
    Preferred wmClass files info ↔ Orderly wmClass files := by
  rcases split_or wmClass files with ⟨hnone, horderly⟩ | ⟨before, last, after, hfiles, hlast, hafter, hiff⟩
  · exact ⟨fun _ => horderly, fun _ => preferred_of_none h hnone⟩
  · have hmem : ∀ f, f ∈ files ↔ f ∈ before ∨ f = last ∨ f ∈ after := by
      intro f
      rw [hfiles, List.mem_append, List.mem_cons]
    have hspec := @chosenFrom_spec _ last _ hafter
    rw [hfiles, chosen_split hlast, Option.some_inj] at h
    rw [h] at hspec
    rw [hiff]
    constructor
    · intro hpreferred hhidden f hf hshow
      have hinfo : info.shouldShow = true := hpreferred.shown f ((hmem f).mpr (.inl hf)) hshow
      split at hspec
      · -- the last exact match would be chosen, which is hidden
        rw [hspec, hhidden] at hinfo
        cases hinfo
      · refine ⟨?_, info, hspec.1, hspec.2⟩
        rw [← Bool.not_eq_true]
        intro hexact
        have h := hpreferred.exact f ((hmem f).mpr (.inl hf)) (hshow.trans hinfo.symm) hexact
        rw [hafter info hspec.1] at h
        cases h
    · intro hcond
      split at hspec
      · next hor =>
        subst hspec
        refine ⟨(hmem info).mpr (.inr (.inl rfl)), fun f hf hshow => ?_, fun _ _ _ _ => hlast⟩
        rcases hor with hshown | hall
        · exact hshown
        · rw [← Bool.not_eq_false]
          intro hhidden
          rcases (hmem f).mp hf with hf | hf | hf
          · obtain ⟨-, g, hg, hgshow⟩ := hcond hhidden f hf hshow
            rw [hall g hg] at hgshow
            cases hgshow
          · rw [hf, hhidden] at hshow
            cases hshow
          · rw [hall f hf] at hshow
            cases hshow
      · next hor =>
        have hhidden : last.shouldShow = false := by
          rw [← Bool.not_eq_true]
          exact fun h => hor (.inl h)
        refine ⟨(hmem info).mpr (.inr (.inr hspec.1)), fun _ _ _ => hspec.2, fun f hf hsame hexact => ?_⟩
        rw [hspec.2] at hsame
        rcases (hmem f).mp hf with hf | hf | hf
        · rw [(hcond hhidden f hf hsame).1] at hexact
          cases hexact
        · rw [hf, hhidden] at hsame
          cases hsame
        · rw [hafter f hf] at hexact
          cases hexact

/-! ## One order and all orders -/

theorem prefers_iff_orderly (hids : (all.map (·.id)).Nodup) :
    Prefers all ↔ ∀ wmClass, Orderly wmClass (filesOf wmClass all) := by
  constructor
  · intro h wmClass
    by_cases hfiles : filesOf wmClass all = []
    · rw [hfiles]
      exact trivial
    · obtain ⟨info, hpreferred, hget⟩ := h wmClass hfiles
      obtain ⟨info', hchosen⟩ := Option.isSome_iff_exists.mp (@chosen_isSome wmClass _ hfiles)
      rw [get?_scan hids, hchosen, Option.map_some, Option.some_inj] at hget
      have hmem := (mem_filesOf.mp hpreferred.mem).1
      have hmem' := (mem_filesOf.mp (mem_of_chosen hchosen)).1
      rw [List.inj_on_of_nodup_map hids hmem' hmem hget] at hchosen
      exact (preferred_iff_orderly hchosen).mp hpreferred
  · intro h wmClass hfiles
    obtain ⟨info, hchosen⟩ := Option.isSome_iff_exists.mp (@chosen_isSome wmClass _ hfiles)
    refine ⟨info, (preferred_iff_orderly hchosen).mpr (h wmClass), ?_⟩
    rw [get?_scan hids, hchosen, Option.map_some]

theorem orderly_of_unanimous (h : Unanimous wmClass files) : Orderly wmClass files := by
  rcases split_or wmClass files with ⟨-, horderly⟩ | ⟨before, last, after, hfiles, hlast, -, hiff⟩
  · exact horderly
  · apply hiff.mpr
    intro hhidden f hf hshow
    have hmem : last ∈ files := by
      rw [hfiles]
      exact List.mem_append_right _ List.mem_cons_self
    have hnot := h last hmem hlast hhidden f (by rw [hfiles]; exact List.mem_append_left _ hf)
    rw [hnot] at hshow
    cases hshow

theorem Preferred.kind {info' : DesktopFile} (h : Preferred wmClass files info)
    (h' : Preferred wmClass files info') :
    info.shouldShow = info'.shouldShow ∧ info.exact wmClass = info'.exact wmClass := by
  have hshow : info.shouldShow = info'.shouldShow :=
    Bool.eq_iff_iff.mpr ⟨h'.shown info h.mem, h.shown info' h'.mem⟩
  refine ⟨hshow, Bool.eq_iff_iff.mpr ⟨?_, ?_⟩⟩
  · exact h'.exact info h.mem hshow
  · exact h.exact info' h'.mem hshow.symm

theorem kindOf_eq (hids : (all.map (·.id)).Nodup) (wmClass : List UInt8) :
    kindOf all wmClass = (chosen wmClass (filesOf wmClass all)).map fun info =>
      (info.shouldShow, info.exact wmClass) := by
  unfold kindOf
  rw [get?_scan hids]
  cases hchosen : chosen wmClass (filesOf wmClass all) with
  | none => rfl
  | some info =>
    have hmem := (mem_filesOf.mp (mem_of_chosen hchosen)).1
    have hfind : all.find? (·.id = info.id) = some info := by
      cases hfind : all.find? (·.id = info.id) with
      | none =>
        have hnot := List.find?_eq_none.mp hfind info hmem
        exact absurd (decide_eq_true rfl) hnot
      | some info' =>
        have hid : info'.id = info.id := by simpa using List.find?_some hfind
        rw [List.inj_on_of_nodup_map hids (List.mem_of_find?_eq_some hfind) hmem hid]
    rw [Option.map_some, Option.bind_some, hfind]

theorem kindOf_perm {all' : List DesktopFile} (hids : (all.map (·.id)).Nodup) (hperm : all'.Perm all)
    (h : ∀ wmClass, Orderly wmClass (filesOf wmClass all))
    (h' : ∀ wmClass, Orderly wmClass (filesOf wmClass all')) (wmClass : List UInt8) :
    kindOf all' wmClass = kindOf all wmClass := by
  have hfiles : (filesOf wmClass all').Perm (filesOf wmClass all) := hperm.filter _
  rw [kindOf_eq hids, kindOf_eq ((hperm.map _).nodup_iff.mpr hids)]
  by_cases hnil : filesOf wmClass all = []
  · rw [hnil] at hfiles ⊢
    rw [hfiles.eq_nil]
  · have hnil' : filesOf wmClass all' ≠ [] := by
      intro heq
      rw [heq] at hfiles
      exact hnil hfiles.nil_eq.symm
    obtain ⟨info, hchosen⟩ := Option.isSome_iff_exists.mp (@chosen_isSome wmClass _ hnil)
    obtain ⟨info', hchosen'⟩ := Option.isSome_iff_exists.mp (@chosen_isSome wmClass _ hnil')
    have hpreferred := (preferred_iff_orderly hchosen).mpr (h wmClass)
    have hpreferred' := (preferred_iff_orderly hchosen').mpr (h' wmClass)
    have hmoved : Preferred wmClass (filesOf wmClass all) info' :=
      ⟨hfiles.mem_iff.mp hpreferred'.mem, fun f hf => hpreferred'.shown f (hfiles.mem_iff.mpr hf),
        fun f hf => hpreferred'.exact f (hfiles.mem_iff.mpr hf)⟩
    obtain ⟨hshow, hexact⟩ := hmoved.kind hpreferred
    rw [hchosen, hchosen', Option.map_some, Option.map_some, hshow, hexact]

theorem not_orderly_append (hexact : info.exact wmClass = true) (hhidden : info.shouldShow = false)
    {f : DesktopFile} (hf : f ∈ files) (hshow : f.shouldShow = true) :
    ¬Orderly wmClass (files ++ [info]) := by
  intro h
  rw [Orderly, List.reverse_append, List.reverse_singleton, List.singleton_append,
    List.dropWhile_cons_of_neg (by simp [hexact]), List.takeWhile_cons_of_neg (by simp [hexact])] at h
  obtain ⟨-, g, hg, -⟩ := h hhidden f (List.mem_reverse.mpr hf) hshow
  exact List.not_mem_nil hg

/-- In the order in which they are, the files are mapped to preferred ones exactly if they are orderly;
and in every order, to one of the same kind, exactly if no class has a hidden exact match besides a
file that should be shown. -/
theorem scan_iff (hids : (all.map (·.id)).Nodup) :
    (Prefers all ↔ ∀ wmClass, Orderly wmClass (filesOf wmClass all)) ∧
      ((∀ all', all'.Perm all → Prefers all' ∧ ∀ wmClass, kindOf all' wmClass = kindOf all wmClass) ↔
        ∀ wmClass, Unanimous wmClass (filesOf wmClass all)) := by
  refine ⟨prefers_iff_orderly hids, ?_, ?_⟩
  · intro h wmClass f hf hexact hhidden g hg
    rw [← Bool.not_eq_true]
    intro hshow
    obtain ⟨hfmem, hfclass⟩ := mem_filesOf.mp hf
    obtain ⟨hgmem, hgclass⟩ := mem_filesOf.mp hg
    -- the order in which `f` comes last
    have hperm : (all.erase f ++ [f]).Perm all :=
      (List.perm_append_singleton f (all.erase f)).trans (List.perm_cons_erase hfmem).symm
    have hne : g ≠ f := by
      rintro rfl
      rw [hhidden] at hshow
      cases hshow
    have horderly := (prefers_iff_orderly ((hperm.map _).nodup_iff.mpr hids)).mp (h _ hperm).1 wmClass
    rw [filesOf_append_self hfclass] at horderly
    have hgmem' : g ∈ filesOf wmClass (all.erase f) :=
      mem_filesOf.mpr ⟨(List.mem_erase_of_ne hne).mpr hgmem, hgclass⟩
    exact not_orderly_append hexact hhidden hgmem' hshow horderly
  · intro h all' hperm
    have hids' := (hperm.map (·.id)).nodup_iff.mpr hids
    have horderly : ∀ wmClass, Orderly wmClass (filesOf wmClass all) :=
      fun wmClass => orderly_of_unanimous (h wmClass)
    have horderly' : ∀ wmClass, Orderly wmClass (filesOf wmClass all') := by
      intro wmClass
      have hfiles : (filesOf wmClass all').Perm (filesOf wmClass all) := hperm.filter _
      apply orderly_of_unanimous
      intro f hf hexact hhidden g hg
      exact h wmClass f (hfiles.mem_iff.mp hf) hexact hhidden g (hfiles.mem_iff.mp hg)
    exact ⟨(prefers_iff_orderly hids').mpr horderly', kindOf_perm hids hperm horderly horderly'⟩

/-- `b.desktop` and `a.desktop`, both of class `a`; the second one is hidden. -/
def hiddenMatch : List DesktopFile :=
  [⟨0x62 :: desktopSuffix, some [0x61], true⟩, ⟨0x61 :: desktopSuffix, some [0x61], false⟩]

theorem scan_iff_reversed :
    (Prefers hiddenMatch.reverse ↔ ∀ c, Orderly c (filesOf c hiddenMatch.reverse)) ∧
      ((∀ all', all'.Perm hiddenMatch.reverse → Prefers all' ∧
          ∀ c, kindOf all' c = kindOf hiddenMatch.reverse c) ↔
        ∀ c, Unanimous c (filesOf c hiddenMatch.reverse)) :=
  scan_iff (by decide)

/-- The class is mapped to the hidden file, as it comes last. -/
theorem not_prefers_hiddenMatch : ¬∀ all : List DesktopFile, (all.map (·.id)).Nodup →
    Prefers all ∧ ∀ all', all'.Perm all → ∀ c, kindOf all' c = kindOf all c := by
  intro h
  have hids : (hiddenMatch.map (·.id)).Nodup := by decide
  have horderly := (prefers_iff_orderly hids).mp (h hiddenMatch hids).1 [0x61]
  revert horderly
  decide

end ShellAppSystem
