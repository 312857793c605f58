import Mathlib.Algebra.Order.Floor.Div
import Mathlib.Data.List.ModifyLast
import Mathlib.Data.List.TakeWhile

/-!
# EmojiSelection — the pages of emojis

`_populateSections` of `EmojiSelection` and `_initPagingInfo` of `EmojiPager` in `js/ui/keyboard.js`:
the emojis are grouped into keys, and the keys of each section are put onto pages.

* **`sectionPages_built`** — the pages of a section, for every number of keys.
* **`populateSections_firstKey`** — the first emoji is a variant of its own key.
* **`not_offers`** — the headline: so it is offered twice, whatever the list.
-/

namespace EmojiSelection

variable {itemsPerPage nPages sect : ℕ} {keys : List Key} {i : ℕ}

structure Emoji where
  name : String
  char : String
deriving DecidableEq

structure Key where
  label : String
  variants : List String
deriving DecidableEq

/-- An entry of `_sections`; `keys` is undefined at first. -/
structure Section where
  first : String
  keys : Option (List Key)
deriving DecidableEq

def Section.clear (sect : Section) : Section := { sect with keys := some [] }

def Section.push (key : Key) (sect : Section) : Section := { sect with keys := sect.keys.map (· ++ [key]) }

def initialSections : List Section :=
  ["grinning face", "monkey face", "grapes", "globe showing Europe-Africa", "jack-o-lantern",
    "muted speaker", "ATM sign"].map (⟨·, none⟩)

def startsWith (emoji currentKey : Emoji) : Bool := currentKey.name.toList.isPrefixOf emoji.name.toList

/-- The variables of the loop of `_populateSections`. -/
structure Loop where
  variants : List String
  currentKey : Emoji
  currentSection : Option ℕ
  sections : List Section

variable (sections : List Section)

def findSection (emoji : String) : Option ℕ :=
  sections.findIdx? (·.first == emoji)

def toKey (emoji : Emoji) (variants : List String) : Key := ⟨emoji.char ++ "\uFE0F", variants⟩

def Loop.enterSection (s : Loop) : Loop :=
  match findSection s.sections s.currentKey.name with
  | none => s
  | some i =>
    { s with currentSection := some i, sections := s.sections.modify i Section.clear }

/-- Creates the key; `none` when there is no section to put it into. -/
def Loop.createKey (s : Loop) : Option Loop :=
  let s := s.enterSection
  s.currentSection.map fun i =>
    { s with sections := s.sections.modify i (Section.push (toKey s.currentKey s.variants)) }

def Loop.step (s : Loop) (emoji : Emoji) (rest : List Emoji) : Option Loop :=
  let next (s : Loop) : Option Loop := s.createKey.map ({ · with currentKey := emoji, variants := [] })
  if startsWith emoji s.currentKey then
    let s := { s with variants := s.variants ++ [emoji.char] }
    if rest.isEmpty then next s else some s
  else next s

def Loop.run : Loop → List Emoji → Option Loop
  | s, [] => some s
  | s, emoji :: rest => (s.step emoji rest).bind (·.run rest)

def populateSections : List Emoji → Option (List Section)
  | [] => some sections
  | emoji :: rest => ((⟨[], emoji, none, sections⟩ : Loop).run (emoji :: rest)).map (·.sections)

/-- An entry of `_pages`; `sect` is the index of its section. -/
structure Page where
  pageKeys : List Key
  nPages : ℕ
  page : ℤ
  sect : ℕ
deriving DecidableEq

/-- The variables of the inner loop of `_initPagingInfo`; `pageKeys` is that of the last page. -/
structure Paging where
  page : ℤ
  pages : List Page

/-- A new page, when the last one is full. A page without cells is never full: the remainder is not a
number then. -/
def Paging.turnPage (itemsPerPage nPages sect : ℕ) (s : Paging) (j : ℕ) : Paging :=
  if 0 < itemsPerPage ∧ j % itemsPerPage = 0 then ⟨s.page + 1, s.pages ++ [⟨[], nPages, s.page + 1, sect⟩]⟩
  else s

/-- The body of the inner loop; `none` while `pageKeys` is undefined. -/
def Paging.addKey (itemsPerPage nPages sect : ℕ) (s : Paging) (j : ℕ) (key : Key) : Option Paging :=
  let s := s.turnPage itemsPerPage nPages sect j
  if s.page < 0 then none
  else some { s with pages := s.pages.modifyLast fun p => { p with pageKeys := p.pageKeys ++ [key] } }

def Paging.run (itemsPerPage nPages sect : ℕ) (s : Paging) (j : ℕ) : List Key → Option Paging
  | [] => some s
  | key :: keys => (s.addKey itemsPerPage nPages sect j key).bind (·.run itemsPerPage nPages sect (j + 1) keys)

def sectionPages (itemsPerPage sect : ℕ) (keys : List Key) : Option (List Page) :=
  ((⟨-1, []⟩ : Paging).run itemsPerPage (keys.length ⌈/⌉ itemsPerPage) sect 0 keys).map (·.pages)

/-- The outer loop of `_initPagingInfo`; `none` when a section has no keys defined. -/
def pagesFrom (itemsPerPage : ℕ) : ℕ → List Section → Option (List Page)
  | _, [] => some []
  | i, sect :: sections => do
    let keys ← sect.keys
    let own ← sectionPages itemsPerPage i keys
    let pages ← pagesFrom itemsPerPage (i + 1) sections
    return own ++ pages

def initPagingInfo (nCols nRows : ℕ) : Option (List Page) :=
  pagesFrom (nCols * nRows) 0 sections

/-! ## What is meant -/

structure Offers (emoji : List Emoji) (sections : List Section) : Prop where
  blocks : ∃ blocks : List (List (Emoji × List Emoji)),
    emoji = blocks.flatMap (·.flatMap fun g => g.1 :: g.2) ∧
    (∀ block ∈ blocks, ∀ g ∈ block, ∀ variant ∈ g.2, startsWith variant g.1 = true) ∧
    (∀ block ∈ blocks, ∃ g rest, block = g :: rest ∧ ∃ sect ∈ sections, sect.first = g.1.name ∧
      sect.keys = some (block.map fun g => toKey g.1 (g.2.map (·.char)))) ∧
    ∀ sect ∈ sections, ∃ g rest, g :: rest ∈ blocks ∧ sect.first = g.1.name

structure Paged (itemsPerPage sect : ℕ) (keys : List Key) (pages : List Page) : Prop where
  keys_eq : pages.flatMap (·.pageKeys) = keys
  sizes : ∀ p ∈ pages, 1 ≤ p.pageKeys.length ∧ p.pageKeys.length ≤ itemsPerPage
  indices : ∀ (k : ℕ) (p : Page), pages[k]? = some p → p.page = k ∧ p.nPages = pages.length ∧ p.sect = sect

structure PagesOf (itemsPerPage : ℕ) (sections : List Section) (pages : List Page) : Prop where
  sizes : ∀ p ∈ pages, 1 ≤ p.pageKeys.length ∧ p.pageKeys.length ≤ itemsPerPage
  sections : ∀ (i : ℕ) (sect : Section) (keys : List Key), sections[i]? = some sect →
    sect.keys = some keys → Paged itemsPerPage i keys (pages.filter (·.sect = i))

/-! ## The pages -/

/-- What holds after the loop has put `keys` onto pages. -/
structure Built (itemsPerPage nPages sect : ℕ) (keys : List Key) (s : Paging) : Prop where
  keys_eq : s.pages.flatMap (·.pageKeys) = keys
  page_eq : s.page + 1 = s.pages.length
  sizes : ∀ p ∈ s.pages, 1 ≤ p.pageKeys.length ∧ p.pageKeys.length ≤ itemsPerPage
  indices : ∀ (k : ℕ) (p : Page), s.pages[k]? = some p → p.page = k ∧ p.nPages = nPages ∧ p.sect = sect
  last : ∀ init p, s.pages = init ++ [p] → keys.length = init.length * itemsPerPage + p.pageKeys.length

theorem built_nil (itemsPerPage nPages sect : ℕ) : Built itemsPerPage nPages sect [] ⟨-1, []⟩ where
  keys_eq := rfl
  page_eq := rfl
  sizes := fun _ h => absurd h List.not_mem_nil
  indices := fun k p h => by cases h
  last := fun init p h => absurd h.symm (List.append_ne_nil_of_right_ne_nil _ (List.cons_ne_nil _ _))

theorem Built.newPage (hitems : 0 < itemsPerPage)
    {s : Paging} (h : Built itemsPerPage nPages sect keys s) (hfull : keys.length % itemsPerPage = 0)
    (key : Key) : Built itemsPerPage nPages sect (keys ++ [key])
      ⟨s.page + 1, s.pages ++ [⟨[key], nPages, s.page + 1, sect⟩]⟩ := by
  have hpage := h.page_eq
  refine ⟨?_, ?_, ?_, ?_, ?_⟩
  · dsimp only
    rw [List.flatMap_append, h.keys_eq]
    rfl
  · dsimp only
    rw [List.length_append, List.length_singleton]
    omega
  · intro p hp
    rcases List.mem_append.mp hp with hp | hp
    · exact h.sizes p hp
    · rw [List.mem_singleton.mp hp]
      exact ⟨Nat.le_refl 1, hitems⟩
  · intro k p hp
    dsimp only at hp
    rcases Nat.lt_or_ge k s.pages.length with hk | hk
    · rw [List.getElem?_append_left hk] at hp
      exact h.indices k p hp
    · rw [List.getElem?_append_right hk, List.getElem?_singleton] at hp
      obtain ⟨hk', hp⟩ := Option.ite_none_right_eq_some.mp hp
      rw [← Option.some.inj hp]
      refine ⟨?_, rfl, rfl⟩
      show s.page + 1 = k
      omega
  · intro init p heq
    obtain ⟨rfl, hp⟩ := List.append_inj' heq rfl
    rw [← List.singleton_inj.mp hp, List.length_append]
    rcases List.eq_nil_or_concat' s.pages with hnil | ⟨before, q, hconcat⟩
    · have hkeys := h.keys_eq
      rw [hnil] at hkeys ⊢
      rw [← hkeys]
      simp
    · have hlast := h.last before q hconcat
      have hsize := h.sizes q (by rw [hconcat]; simp)
      rw [hlast, Nat.mul_comm, Nat.mul_add_mod] at hfull
      have hq : q.pageKeys.length = itemsPerPage := by
        by_contra hne
        rw [Nat.mod_eq_of_lt (by omega)] at hfull
        omega
      rw [hconcat, hlast, hq, List.length_append, List.length_singleton, List.length_singleton,
        Nat.add_mul, Nat.one_mul]

theorem Built.lastPage {page : ℤ} {before : List Page}
    {q : Page} (h : Built itemsPerPage nPages sect keys ⟨page, before ++ [q]⟩)
    (hroom : q.pageKeys.length < itemsPerPage) (key : Key) :
    Built itemsPerPage nPages sect (keys ++ [key])
      ⟨page, before ++ [{ q with pageKeys := q.pageKeys ++ [key] }]⟩ := by
  refine ⟨?_, ?_, ?_, ?_, ?_⟩
  · rw [← h.keys_eq]
    simp
  · rw [h.page_eq]
    simp
  · intro p hp
    rcases List.mem_append.mp hp with hp | hp
    · exact h.sizes p (List.mem_append_left _ hp)
    · rw [List.mem_singleton.mp hp, List.length_append, List.length_singleton]
      omega
  · intro k p hp
    dsimp only at hp
    rcases Nat.lt_or_ge k before.length with hk | hk
    · rw [List.getElem?_append_left hk] at hp
      exact h.indices k p (by rw [List.getElem?_append_left hk, hp])
    · rw [List.getElem?_append_right hk, List.getElem?_singleton] at hp
      obtain ⟨hk', hp⟩ := Option.ite_none_right_eq_some.mp hp
      have hindex := h.indices k q (by rw [List.getElem?_append_right hk, hk', List.getElem?_cons_zero])
      rw [← Option.some.inj hp]
      exact hindex
  · intro init p heq
    obtain ⟨rfl, hp⟩ := List.append_inj' heq rfl
    rw [← List.singleton_inj.mp hp, List.length_append, List.length_append, h.last before q rfl,
      Nat.add_assoc]

theorem built_addKey (hitems : 0 < itemsPerPage)
    {s : Paging} (h : Built itemsPerPage nPages sect keys s) (key : Key) :
    ∃ t, s.addKey itemsPerPage nPages sect keys.length key = some t ∧
      Built itemsPerPage nPages sect (keys ++ [key]) t := by
  have hpage := h.page_eq
  unfold Paging.addKey Paging.turnPage
  by_cases hfull : keys.length % itemsPerPage = 0
  · simp only [if_pos (And.intro hitems hfull)]
    have hdefined : ¬s.page + 1 < 0 := by omega
    rw [if_neg hdefined, List.modifyLast_concat]
    exact ⟨_, rfl, h.newPage hitems hfull key⟩
  · have hturn : ¬(0 < itemsPerPage ∧ keys.length % itemsPerPage = 0) := fun hand => hfull hand.2
    simp only [if_neg hturn]
    obtain ⟨page, pages⟩ := s
    rcases List.eq_nil_or_concat' pages with rfl | ⟨before, q, rfl⟩
    · have hempty : [] = keys := h.keys_eq
      rw [← hempty] at hfull
      exact absurd (Nat.zero_mod _) hfull
    · have hlast := h.last before q rfl
      have hsize := h.sizes q (by simp)
      have hroom : q.pageKeys.length ≠ itemsPerPage := by
        intro heq
        rw [hlast, heq, ← Nat.succ_mul, Nat.mul_mod_left] at hfull
        exact hfull rfl
      have hdefined : ¬page < 0 := by
        dsimp only at hpage
        rw [List.length_append, List.length_singleton] at hpage
        omega
      rw [if_neg hdefined, List.modifyLast_concat]
      exact ⟨_, rfl, h.lastPage (by omega) key⟩

/-- Induction on the keys that are left. -/
theorem built_run (hitems : 0 < itemsPerPage) (rest : List Key) :
    ∀ {keys : List Key} {s : Paging}, Built itemsPerPage nPages sect keys s →
      ∃ t, s.run itemsPerPage nPages sect keys.length rest = some t ∧
        Built itemsPerPage nPages sect (keys ++ rest) t := by
  induction rest with
  | nil =>
    intro keys s h
    refine ⟨s, rfl, ?_⟩
    rw [List.append_nil]
    exact h
  | cons key rest ih =>
    intro keys s h
    obtain ⟨t, hadd, ht⟩ := built_addKey hitems h key
    obtain ⟨t', hrun, ht'⟩ := ih ht
    refine ⟨t', ?_, ?_⟩
    · rw [Paging.run, hadd, Option.bind_some]
      rw [List.length_append, List.length_singleton] at hrun
      exact hrun
    · rw [List.append_assoc] at ht'
      exact ht'

theorem Built.length_eq (hitems : 0 < itemsPerPage)
    {s : Paging} (h : Built itemsPerPage nPages sect keys s) :
    s.pages.length = keys.length ⌈/⌉ itemsPerPage := by
  rw [Nat.ceilDiv_eq_add_pred_div]
  rcases List.eq_nil_or_concat' s.pages with hnil | ⟨before, q, hconcat⟩
  · have hkeys := h.keys_eq
    rw [hnil] at hkeys ⊢
    rw [← hkeys]
    symm
    apply Nat.div_eq_of_lt
    show 0 + itemsPerPage - 1 < itemsPerPage
    omega
  · have hlast := h.last before q hconcat
    have hsize := h.sizes q (by rw [hconcat]; simp)
    rw [hconcat, hlast, List.length_append, List.length_singleton]
    symm
    apply Nat.div_eq_of_lt_le <;> rw [Nat.succ_mul]
    · omega
    · rw [Nat.succ_mul]
      omega

theorem sectionPages_paged {itemsPerPage : ℕ} (hitems : 0 < itemsPerPage) (sect : ℕ) (keys : List Key) :
    ∃ pages, sectionPages itemsPerPage sect keys = some pages ∧ Paged itemsPerPage sect keys pages := by
  obtain ⟨s, hrun, hs⟩ := built_run hitems keys (built_nil itemsPerPage (keys.length ⌈/⌉ itemsPerPage) sect)
  rw [List.nil_append] at hs
  have hpages : sectionPages itemsPerPage sect keys = some s.pages :=
    congrArg (Option.map Paging.pages) hrun
  refine ⟨s.pages, hpages, hs.keys_eq, hs.sizes, ?_⟩
  rw [hs.length_eq hitems]
  exact hs.indices

theorem Paged.sect_eq {itemsPerPage sect : ℕ} {pages : List Page}
    (h : Paged itemsPerPage sect keys pages) {p : Page} (hp : p ∈ pages) : p.sect = sect := by
  obtain ⟨k, hk⟩ := List.mem_iff_getElem?.mp hp
  exact (h.indices k p hk).2.2

/-- Induction on the sections; the pages of the later ones are not those of this one. -/
theorem pagesFrom_paged {itemsPerPage : ℕ} (hitems : 0 < itemsPerPage) (sections : List Section) :
    ∀ (i : ℕ), (∀ sect ∈ sections, sect.keys.isSome = true) →
      ∃ pages, pagesFrom itemsPerPage i sections = some pages ∧
        (∀ p ∈ pages, i ≤ p.sect ∧ 1 ≤ p.pageKeys.length ∧ p.pageKeys.length ≤ itemsPerPage) ∧
        ∀ (k : ℕ) (sect : Section) (keys : List Key), sections[k]? = some sect → sect.keys = some keys →
          Paged itemsPerPage (i + k) keys (pages.filter (·.sect = i + k)) := by
  induction sections with
  | nil =>
    intro i _
    exact ⟨[], rfl, fun _ h => absurd h List.not_mem_nil, fun _ _ _ h => by cases h⟩
  | cons sect sections ih =>
    intro i hkeys
    obtain ⟨keys, hsect⟩ := Option.isSome_iff_exists.mp (hkeys sect List.mem_cons_self)
    obtain ⟨own, hown, hpaged⟩ := sectionPages_paged hitems i keys
    obtain ⟨pages, hpages, hlater, hrest⟩ := ih (i + 1) fun sect' h => hkeys sect' (List.mem_cons_of_mem _ h)
    refine ⟨own ++ pages, ?_, ?_, ?_⟩
    · rw [pagesFrom, hsect, Option.bind_eq_bind, Option.bind_some, hown, Option.bind_eq_bind,
        Option.bind_some, hpages]
      rfl
    · intro p hp
      rcases List.mem_append.mp hp with hp | hp
      · exact ⟨(hpaged.sect_eq hp).ge, hpaged.sizes p hp⟩
      · exact ⟨(hlater p hp).1.trans' (Nat.le_succ i), (hlater p hp).2⟩
    · intro k sect' keys' hk hkeys'
      rw [List.filter_append]
      cases k with
      | zero =>
        cases hk
        cases hsect.symm.trans hkeys'
        have hmine : own.filter (·.sect = i + 0) = own :=
          List.filter_eq_self.mpr fun p hp => decide_eq_true (hpaged.sect_eq hp)
        have hnone : pages.filter (·.sect = i + 0) = [] := by
          apply List.filter_eq_nil_iff.mpr
          intro p hp heq
          have hle := (hlater p hp).1
          rw [of_decide_eq_true heq] at hle
          omega
        rw [hmine, hnone, List.append_nil]
        exact hpaged
      | succ k =>
        have hnone : own.filter (·.sect = i + (k + 1)) = [] := by
          apply List.filter_eq_nil_iff.mpr
          intro p hp heq
          have hsect' := of_decide_eq_true heq
          rw [hpaged.sect_eq hp] at hsect'
          omega
        have hindex : i + (k + 1) = i + 1 + k := by omega
        rw [hnone, List.nil_append, hindex]
        exact hrest k sect' keys' hk hkeys'

theorem initPagingInfo_pagesOf {nCols nRows : ℕ} (hcells : 1 ≤ nCols * nRows) {sections : List Section}
    (hkeys : ∀ sect ∈ sections, sect.keys.isSome = true) :
    ∃ pages, initPagingInfo sections nCols nRows = some pages ∧ PagesOf (nCols * nRows) sections pages := by
  obtain ⟨pages, hpages, hsizes, hpaged⟩ := pagesFrom_paged hcells sections 0 hkeys
  refine ⟨pages, hpages, fun p hp => (hsizes p hp).2, fun i sect keys hi hsect => ?_⟩
  have hthis := hpaged i sect keys hi hsect
  rw [Nat.zero_add] at hthis
  exact hthis

/-! ## The first key -/

def Starts (i : ℕ) (first : String) (key : Key) : Prop :=
  ∃ more, sections[i]? = some ⟨first, some (key :: more)⟩

theorem map_first_modify (i : ℕ) {f : Section → Section}
    (hf : ∀ sect, (f sect).first = sect.first) :
    (sections.modify i f).map (·.first) = sections.map (·.first) := by
  apply List.ext_getElem?
  intro k
  rw [List.getElem?_map, List.getElem?_map, List.getElem?_modify, Option.map_eq_map, Option.map_map]
  apply Option.map_congr
  intro sect _
  show (if i = k then f sect else sect).first = sect.first
  split
  · exact hf sect
  · rfl

theorem firsts_createKey {s t : Loop} (h : s.createKey = some t) :
    t.sections.map (·.first) = s.sections.map (·.first) := by
  obtain ⟨i, -, rfl⟩ := Option.map_eq_some_iff.mp h
  rw [map_first_modify _ i (f := Section.push _) fun _ => rfl]
  unfold Loop.enterSection
  split
  · rfl
  · exact map_first_modify _ _ fun _ => rfl

theorem starts_createKey {s t : Loop} (h : s.createKey = some t) {first : String} {key : Key}
    (hne : s.currentKey.name ≠ first) (hstarts : Starts s.sections i first key) :
    Starts t.sections i first key := by
  obtain ⟨i', -, rfl⟩ := Option.map_eq_some_iff.mp h
  have henter : Starts s.enterSection.sections i first key := by
    unfold Loop.enterSection
    split
    · exact hstarts
    · next j hj =>
      obtain ⟨more, hmore⟩ := hstarts
      obtain ⟨hlt, hname, -⟩ := List.findIdx?_eq_some_iff_getElem.mp hj
      have hji : j ≠ i := by
        rintro rfl
        rw [List.getElem?_eq_getElem hlt] at hmore
        rw [Option.some.inj hmore] at hname
        exact hne (beq_iff_eq.mp hname).symm
      refine ⟨more, ?_⟩
      dsimp only
      rw [List.getElem?_modify_ne _ _ hji, hmore]
  obtain ⟨more, hmore⟩ := henter
  unfold Starts
  dsimp only
  by_cases hi : i' = i
  · rw [hi, List.getElem?_modify_eq, hmore]
    exact ⟨more ++ [_], rfl⟩
  · rw [List.getElem?_modify_ne _ _ hi, hmore]
    exact ⟨more, rfl⟩

theorem step_cases {s t : Loop} {emoji : Emoji} {rest : List Emoji} (h : s.step emoji rest = some t) :
    (startsWith emoji s.currentKey = true ∧ rest ≠ [] ∧
        t = { s with variants := s.variants ++ [emoji.char] }) ∨
      ∃ variants u, (startsWith emoji s.currentKey = true → rest = [] ∧
          variants = s.variants ++ [emoji.char]) ∧
        (startsWith emoji s.currentKey = false → variants = s.variants) ∧
        { s with variants }.createKey = some u ∧ t = { u with currentKey := emoji, variants := [] } := by
  unfold Loop.step at h
  dsimp only at h
  split at h
  · next hstarts =>
    split at h
    · next hempty =>
      obtain ⟨u, hu, rfl⟩ := Option.map_eq_some_iff.mp h
      refine .inr ⟨_, u, fun _ => ⟨List.isEmpty_iff.mp hempty, rfl⟩, fun hnot => ?_, hu, rfl⟩
      rw [hstarts] at hnot
      cases hnot
    · next hempty =>
      refine .inl ⟨hstarts, fun hnil => hempty (List.isEmpty_iff.mpr hnil), (Option.some.inj h).symm⟩
  · next hstarts =>
    obtain ⟨u, hu, rfl⟩ := Option.map_eq_some_iff.mp h
    exact .inr ⟨s.variants, u, fun hyes => absurd hyes hstarts, fun _ => rfl, hu, rfl⟩

theorem starts_run {first : String} {key : Key} (rest : List Emoji) :
    ∀ {s t : Loop}, s.run rest = some t → (∀ e ∈ rest, e.name ≠ first) →
      (rest ≠ [] → s.currentKey.name ≠ first) → Starts s.sections i first key →
      Starts t.sections i first key ∧ t.sections.map (·.first) = s.sections.map (·.first) := by
  induction rest with
  | nil =>
    rintro s t h - - hstarts
    cases h
    exact ⟨hstarts, rfl⟩
  | cons emoji rest ih =>
    intro s t h hrest hcurrent hstarts
    obtain ⟨u, hstep, hrun⟩ := Option.bind_eq_some_iff.mp h
    have hname := hcurrent (List.cons_ne_nil _ _)
    have hlater : ∀ e ∈ rest, e.name ≠ first := fun e he => hrest e (List.mem_cons_of_mem _ he)
    rcases step_cases hstep with ⟨-, -, rfl⟩ | ⟨variants, u, -, -, hcreate, rfl⟩
    · have hthis := ih hrun hlater (fun _ => hname) hstarts
      exact hthis
    · have hkept := starts_createKey hcreate hname hstarts
      obtain ⟨hthis, hfirsts⟩ := ih hrun hlater (fun _ => hrest emoji List.mem_cons_self) hkept
      have hcreated := firsts_createKey hcreate
      exact ⟨hthis, hfirsts.trans hcreated⟩

theorem run_group (group : List Emoji) {after : List Emoji} :
    ∀ {s t : Loop}, (∀ e ∈ group, startsWith e s.currentKey = true) →
      (∀ e ∈ after.head?, startsWith e s.currentKey = false) → group ++ after ≠ [] →
      s.run (group ++ after) = some t →
      ∃ u e rest, { s with variants := s.variants ++ group.map Emoji.char }.createKey = some u ∧
        ({ u with currentKey := e, variants := [] } : Loop).run rest = some t ∧
        (rest = [] ∨ after = e :: rest) := by
  induction group with
  | nil =>
    intro s t _ hafter hne h
    obtain ⟨e, rest, rfl⟩ := List.exists_cons_of_ne_nil hne
    obtain ⟨u, hstep, hrun⟩ := Option.bind_eq_some_iff.mp h
    have hnot := hafter e rfl
    rcases step_cases hstep with ⟨hyes, -, -⟩ | ⟨variants, u, -, hvariants, hcreate, rfl⟩
    · rw [hnot] at hyes
      cases hyes
    · rw [hvariants hnot] at hcreate
      rw [List.map_nil, List.append_nil]
      exact ⟨u, e, rest, hcreate, hrun, .inr rfl⟩
  | cons emoji group ih =>
    intro s t hgroup hafter _ h
    obtain ⟨u, hstep, hrun⟩ := Option.bind_eq_some_iff.mp h
    have hstarts := hgroup emoji List.mem_cons_self
    have hlater : ∀ e ∈ group, startsWith e s.currentKey = true :=
      fun e he => hgroup e (List.mem_cons_of_mem _ he)
    rw [List.map_cons, ← List.singleton_append, ← List.append_assoc]
    rcases step_cases hstep with ⟨-, hrest, rfl⟩ | ⟨variants, u, hvariants, -, hcreate, rfl⟩
    · exact ih (s := { s with variants := s.variants ++ [emoji.char] }) hlater hafter hrest hrun
    · obtain ⟨hnil, rfl⟩ := hvariants hstarts
      rw [hnil] at hrun
      rw [(List.append_eq_nil_iff.mp hnil).1, List.map_nil, List.append_nil]
      exact ⟨u, emoji, [], hcreate, hrun, .inl rfl⟩

theorem populateSections_firstKey {sections out : List Section} {emoji : Emoji} {rest : List Emoji}
    {sect : Section} (hsect : sections[i]? = some sect) (hname : sect.first = emoji.name)
    (hnodup : (sections.map (·.first)).Nodup) (hrest : ∀ e ∈ rest, e.name ≠ emoji.name)
    (h : populateSections sections (emoji :: rest) = some out) : Starts out i emoji.name
        (toKey emoji ((emoji :: rest.takeWhile (startsWith · emoji)).map (·.char))) ∧
      out.map (·.first) = sections.map (·.first) := by
  obtain ⟨t, hrun, rfl⟩ := Option.map_eq_some_iff.mp h
  have hself : startsWith emoji emoji = true := List.isPrefixOf_iff_prefix.mpr (List.prefix_refl _)
  have hsplit : emoji :: rest = (emoji :: rest.takeWhile (startsWith · emoji)) ++
      rest.dropWhile (startsWith · emoji) := by
    rw [List.cons_append, List.takeWhile_append_dropWhile]
  rw [hsplit] at hrun
  obtain ⟨u, e, later, hcreate, hlater, hlast⟩ := run_group _ (by
    intro x hx
    rcases List.mem_cons.mp hx with rfl | hx
    · exact hself
    · exact List.mem_takeWhile_imp (p := (startsWith · emoji)) hx) (by
    intro x hx
    have hhead := List.head?_dropWhile_not (startsWith · emoji) rest
    rw [Option.mem_def.mp hx] at hhead
    simpa using hhead) (List.cons_ne_nil _ _) hrun
  -- the section of the first key is found
  have hfind : findSection sections emoji.name = some i := by
    obtain ⟨hi, hget⟩ := List.getElem?_eq_some_iff.mp hsect
    apply List.findIdx?_eq_some_iff_getElem.mpr
    refine ⟨hi, by rw [hget, hname]; exact beq_self_eq_true _, fun j hj heq => ?_⟩
    have hlength : (sections.map (·.first)).length = sections.length := List.length_map _
    have hjmap : j < (sections.map (·.first)).length := by omega
    have himap : i < (sections.map (·.first)).length := by omega
    have hsame : (sections.map (·.first))[j] = (sections.map (·.first))[i] := by
      rw [List.getElem_map, List.getElem_map, hget, hname]
      exact beq_iff_eq.mp heq
    have hij := (hnodup.getElem_inj_iff).mp hsame
    omega
  have hcreated := firsts_createKey hcreate
  have hstarts : Starts u.sections i emoji.name
      (toKey emoji ((emoji :: rest.takeWhile (startsWith · emoji)).map (·.char))) := by
    unfold Loop.createKey Loop.enterSection at hcreate
    simp only [hfind] at hcreate
    obtain ⟨j, hj, rfl⟩ := Option.map_eq_some_iff.mp hcreate
    cases hj
    refine ⟨[], ?_⟩
    dsimp only
    rw [List.getElem?_modify_eq, List.getElem?_modify_eq, hsect, ← hname]
    rfl
  have hmem : ∀ x ∈ rest.dropWhile (startsWith · emoji), x.name ≠ emoji.name :=
    fun x hx => hrest x ((List.dropWhile_sublist _).mem hx)
  rcases hlast with rfl | hcons
  · cases hlater
    exact ⟨hstarts, hcreated⟩
  · rw [hcons] at hmem
    obtain ⟨hthis, hfirsts⟩ := starts_run later hlater (fun x hx => hmem x (List.mem_cons_of_mem _ hx))
      (fun _ => hmem e List.mem_cons_self) hstarts
    exact ⟨hthis, hfirsts.trans hcreated⟩

theorem not_offers_of_starts {sections : List Section} {emoji : Emoji} {rest : List Emoji}
    (hstarts : Starts sections i emoji.name
      (toKey emoji ((emoji :: rest.takeWhile (startsWith · emoji)).map (·.char))))
    (hnodup : (sections.map (·.first)).Nodup) : ¬Offers (emoji :: rest) sections := by
  rintro ⟨blocks, hlist, hvariants, hkeys, -⟩
  obtain ⟨more, hmore⟩ := hstarts
  cases blocks with
  | nil => cases hlist
  | cons block blocks =>
    obtain ⟨⟨base, variants⟩, groups, rfl, sect, hsect, hfirst, hblock⟩ := hkeys block List.mem_cons_self
    rw [List.flatMap_cons, List.flatMap_cons, List.cons_append, List.cons_append] at hlist
    obtain ⟨rfl, hrest⟩ := List.cons.inj hlist
    have hsame : sect = ⟨emoji.name, some
        (toKey emoji ((emoji :: rest.takeWhile (startsWith · emoji)).map (·.char)) :: more)⟩ :=
      List.inj_on_of_nodup_map hnodup hsect (List.mem_of_getElem? hmore) hfirst
    rw [hsame] at hblock
    have hkey := (List.cons.inj (Option.some.inj hblock)).1
    have hcount := congrArg (·.variants.length) hkey
    simp only [toKey, List.length_map, List.length_cons] at hcount
    have htake : variants <+: rest.takeWhile (startsWith · emoji) := by
      rw [hrest, List.append_assoc, List.takeWhile_append_of_pos
        (hvariants _ List.mem_cons_self _ List.mem_cons_self)]
      exact List.prefix_append _ _
    have hle := htake.length_le
    omega

theorem nodup_initialSections : (initialSections.map (·.first)).Nodup := by decide

/-- The first emoji is offered twice: as the label of its key, and as a variant of it. -/
theorem not_offers {emoji : List Emoji} {nCols nRows : ℕ} (hne : emoji ≠ [])
    (hfirst : ∀ e ∈ emoji.head?, ∃ sect ∈ initialSections, sect.first = e.name)
    (honce : ∀ sect ∈ initialSections, (emoji.map (·.name)).count sect.first = 1)
    (_hcells : 1 ≤ nCols * nRows) :
    ¬∃ sections pages, populateSections initialSections emoji = some sections ∧
      initPagingInfo sections nCols nRows = some pages ∧ Offers emoji sections ∧
      PagesOf (nCols * nRows) sections pages := by
  rintro ⟨sections, pages, hpopulate, -, hoffers, -⟩
  obtain ⟨e, rest, rfl⟩ := List.exists_cons_of_ne_nil hne
  obtain ⟨sect, hsect, hname⟩ := hfirst e rfl
  obtain ⟨i, hi⟩ := List.mem_iff_getElem?.mp hsect
  have hcount := honce sect hsect
  have hrest : ∀ x ∈ rest, x.name ≠ e.name := by
    intro x hx heq
    have hpos : 0 < (rest.map (·.name)).count e.name :=
      List.count_pos_iff.mpr (heq ▸ List.mem_map_of_mem hx)
    rw [hname, List.map_cons, List.count_cons_self] at hcount
    omega
  obtain ⟨hstarts, hfirsts⟩ := populateSections_firstKey hi hname nodup_initialSections hrest hpopulate
  exact not_offers_of_starts hstarts (hfirsts ▸ nodup_initialSections) hoffers

def eightEmojis : List Emoji :=
  [⟨"grinning face", "😀"⟩, ⟨"monkey face", "🐵"⟩, ⟨"grapes", "🍇"⟩,
    ⟨"globe showing Europe-Africa", "🌍"⟩, ⟨"jack-o-lantern", "🎃"⟩, ⟨"muted speaker", "🔇"⟩,
    ⟨"ATM sign", "🏧"⟩, ⟨"ATM sign: framed", "🏧"⟩]

theorem not_offers_eightEmojis :
    (∀ e ∈ eightEmojis.head?, ∃ sect ∈ initialSections, sect.first = e.name) ∧
    (∀ sect ∈ initialSections, (eightEmojis.map (·.name)).count sect.first = 1) ∧
    ¬∃ sections pages, populateSections initialSections eightEmojis = some sections ∧
      initPagingInfo sections 10 3 = some pages ∧ Offers eightEmojis sections ∧
      PagesOf (10 * 3) sections pages := by
  have hfirst : ∀ e ∈ eightEmojis.head?, ∃ sect ∈ initialSections, sect.first = e.name := by decide
  have honce : ∀ sect ∈ initialSections, (eightEmojis.map (·.name)).count sect.first = 1 := by decide
  exact ⟨hfirst, honce, not_offers (by decide) hfirst honce (by decide)⟩

def eightSections : List Section :=
  [⟨"grinning face", some [⟨"😀\uFE0F", ["😀"]⟩]⟩, ⟨"monkey face", some [⟨"🐵\uFE0F", []⟩]⟩,
    ⟨"grapes", some [⟨"🍇\uFE0F", []⟩]⟩, ⟨"globe showing Europe-Africa", some [⟨"🌍\uFE0F", []⟩]⟩,
    ⟨"jack-o-lantern", some [⟨"🎃\uFE0F", []⟩]⟩, ⟨"muted speaker", some [⟨"🔇\uFE0F", []⟩]⟩,
    ⟨"ATM sign", some [⟨"🏧\uFE0F", ["🏧"]⟩]⟩]

/-- The pages are right, but the first key has its own emoji on the popover. -/
theorem not_offers_grinningFace :
    populateSections initialSections eightEmojis = some eightSections ∧
    (∃ pages, initPagingInfo eightSections 10 3 = some pages ∧ PagesOf (10 * 3) eightSections pages) ∧
    ¬Offers eightEmojis eightSections := by
  refine ⟨by decide, initPagingInfo_pagesOf (by decide) (by decide), ?_⟩
  have hstarts : Starts eightSections 0 "grinning face" ⟨"😀\uFE0F", ["😀"]⟩ := ⟨[], by decide⟩
  exact not_offers_of_starts hstarts (by decide)

end EmojiSelection
