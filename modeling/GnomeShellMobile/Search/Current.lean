import GnomeShellMobile.Search.View

/-!
# Search — the results are those of the current terms

* `Refused`, `Harmless`: what a display does with metas, and when that is nothing.
* `waits`: the answers that are awaited, of result sets and of metas alike.
* `Inv`, `Careful`: the invariant, and what each event has to meet for it.
* `run_current`: in every careful run the displays are those of the current terms.
-/

namespace Search

variable {s t : State} {p q : ℕ}

/-! ## A display and its metas -/

variable (d : Display)

def Refused (m : Metas) (metas : List Meta) : Prop :=
  m.needed ≠ [] ∧ (d.cancelled = true ∨ metas.length ≠ m.needed.length ∨
    ∃ x ∈ metas, x.name = "" ∨ x.id = "")
deriving Decidable

/-- Every result of `m` has an actor once the metas are there. -/
def Complete (m : Metas) : Prop :=
  ∀ r ∈ m.results, r ∈ d.resultDisplays ∨ r ∈ m.needed
deriving Decidable

def Harmless (m : Metas) (metas : List Meta) : Prop :=
  if Refused d m metas then d.content = []
  else if Complete d m then d.content = m.results.eraseDups ∧ d.visible = true
  else d.content = [] ∧ d.visible = false
deriving Decidable

namespace Display

variable {d : Display} {m : Metas} {metas : List Meta}

theorem ensureResultActors_of_refused (h : Refused d m metas) (id : String) :
    ∃ error, d.ensureResultActors id m.needed metas = .error error := by
  obtain ⟨hneeded, hrefused⟩ := h
  rw [ensureResultActors, if_neg hneeded]
  by_cases hcancelled : d.cancelled = true ∧ metas ≠ []
  · exact ⟨_, if_pos hcancelled⟩
  · rw [if_neg hcancelled]
    by_cases hlength : metas.length ≠ m.needed.length
    · exact ⟨_, if_pos hlength⟩
    · rw [if_neg hlength]
      have hpos : 0 < m.needed.length := List.length_pos_iff.mpr hneeded
      have hmetas : metas ≠ [] := List.ne_nil_of_length_pos (by omega)
      obtain hc | hl | hinvalid := hrefused
      · exact absurd ⟨hc, hmetas⟩ hcancelled
      · exact absurd hl hlength
      · refine ⟨_, if_pos ?_⟩
        simpa using hinvalid

theorem ensureResultActors_of_not_refused (h : ¬ Refused d m metas) (id : String) :
    d.ensureResultActors id m.needed metas =
      .ok { d with resultDisplays := d.resultDisplays ++ m.needed } := by
  by_cases hneeded : m.needed = []
  · rw [ensureResultActors, if_pos hneeded, hneeded, List.append_nil]
  · have hall : ¬ (d.cancelled = true ∨ metas.length ≠ m.needed.length ∨
        ∃ x ∈ metas, x.name = "" ∨ x.id = "") := fun hrefused => h ⟨hneeded, hrefused⟩
    push Not at hall
    obtain ⟨hcancelled, hlength, hvalid⟩ := hall
    rw [ensureResultActors, if_neg hneeded, if_neg (fun hc => hcancelled hc.1),
      if_neg (not_not.mpr hlength), if_neg]
    simpa using hvalid

theorem receive_of_refused (h : Refused d m metas) (id : String) :
    d.receive id m metas = { d with content := [] } := by
  obtain ⟨error, herror⟩ := ensureResultActors_of_refused h id
  rw [receive, herror]

theorem receive_of_not_refused (h : ¬ Refused d m metas) (id : String) : d.receive id m metas =
      showResults { d with resultDisplays := d.resultDisplays ++ m.needed } m.results := by
  rw [receive, ensureResultActors_of_not_refused h id]

theorem complete_iff : Complete d m ↔ ∀ r ∈ m.results, r ∈ d.resultDisplays ++ m.needed := by
  simp only [Complete, List.mem_append]

theorem receive_of_complete (h : ¬ Refused d m metas) (hcomplete : Complete d m) (id : String) :
    d.receive id m metas =
      { d with
        content := m.results.eraseDups
        visible := true
        resultDisplays := d.resultDisplays ++ m.needed } := by
  rw [receive_of_not_refused h, showResults, if_pos (complete_iff.mp hcomplete)]

theorem receive_of_not_complete (h : ¬ Refused d m metas) (hcomplete : ¬ Complete d m)
    (id : String) : d.receive id m metas =
      { d with
        content := []
        visible := false
        resultDisplays := d.resultDisplays ++ m.needed } := by
  rw [receive_of_not_refused h, showResults, if_neg (fun hall => hcomplete (complete_iff.mpr hall))]

theorem receive_same_iff (id : String) :
    ((d.receive id m metas).content = d.content ∧ (d.receive id m metas).visible = d.visible) ↔
      Harmless d m metas := by
  by_cases hrefused : Refused d m metas
  · rw [receive_of_refused hrefused, Harmless, if_pos hrefused]
    exact ⟨fun h => h.1.symm, fun h => ⟨h.symm, rfl⟩⟩
  · rw [Harmless, if_neg hrefused]
    by_cases hcomplete : Complete d m
    · rw [receive_of_complete hrefused hcomplete, if_pos hcomplete]
      exact ⟨fun h => ⟨h.1.symm, h.2.symm⟩, fun h => ⟨h.1.symm, h.2.symm⟩⟩
    · rw [receive_of_not_complete hrefused hcomplete, if_neg hcomplete]
      exact ⟨fun h => ⟨h.1.symm, h.2.symm⟩, fun h => ⟨h.1.symm, h.2.symm⟩⟩

theorem receive_cancelled (id : String) : (d.receive id m metas).cancelled = d.cancelled := by
  by_cases hrefused : Refused d m metas
  · rw [receive_of_refused hrefused]
  · by_cases hcomplete : Complete d m
    · rw [receive_of_complete hrefused hcomplete]
    · rw [receive_of_not_complete hrefused hcomplete]

theorem mem_receive {r : String} (id : String) (h : r ∈ d.resultDisplays) :
    r ∈ (d.receive id m metas).resultDisplays := by
  by_cases hrefused : Refused d m metas
  · rwa [receive_of_refused hrefused]
  · by_cases hcomplete : Complete d m
    · rw [receive_of_complete hrefused hcomplete]
      exact List.mem_append_left _ h
    · rw [receive_of_not_complete hrefused hcomplete]
      exact List.mem_append_left _ h

end Display

/-! ## Awaited answers -/

namespace State

@[simp] theorem setProvider_self (s : State) (p : ℕ) (provider : Provider) :
    (s.setProvider p provider).provider p = provider := Function.update_self ..

theorem setProvider_other (s : State) (provider : Provider) (h : q ≠ p) :
    (s.setProvider p provider).provider q = s.provider q := Function.update_of_ne h ..

def waits (s : State) : List (ℕ × ℕ) :=
  (s.requests.map fun r => (r.provider, r.gen)) ++ s.metas.map fun m => (m.provider, m.gen)

theorem mem_waits_of_request {r : Request} (h : r ∈ s.requests) : (r.provider, r.gen) ∈ s.waits :=
  List.mem_append_left _ (List.mem_map_of_mem h)

theorem mem_waits_of_metas {m : Metas} (h : m ∈ s.metas) : (m.provider, m.gen) ∈ s.waits :=
  List.mem_append_right _ (List.mem_map_of_mem h)

theorem waits_eq_nil_iff : s.waits = [] ↔ s.requests = [] ∧ s.metas = [] := by
  simp only [waits, List.append_eq_nil_iff, List.map_eq_nil_iff]

/-- An answer for the current terms is awaited from `p`. -/
def Pending (s : State) (p : ℕ) : Prop := (p, s.gen) ∈ s.waits

def limited (s : State) (p : ℕ) (results : List String) : List String :=
  (s.provider p).filterResults results ((s.provider p).maxDisplayedResults s.columns)

/-- What the metas `m` need to be shown as they come. -/
structure Fits (s : State) (m : Metas) : Prop where
  cancelled : m.needed ≠ [] → (s.provider m.provider).display.cancelled = false
  complete : Complete (s.provider m.provider).display m
  answered : ∃ results, results ≠ [] ∧ ⟨m.provider, m.gen, results⟩ ∈ s.answered ∧
    m.results = s.limited m.provider results

/-- In `t` the provider `p` gets as many results as in `s`, and what was answered still is. -/
structure Keeps (s t : State) (p : ℕ) : Prop where
  columns : t.columns = s.columns
  answered : s.answered ⊆ t.answered
  isRemoteProvider : (t.provider p).isRemoteProvider = (s.provider p).isRemoteProvider

theorem Keeps.limited (h : s.Keeps t p) (results : List String) :
    t.limited p results = s.limited p results := by
  have hmax : (t.provider p).maxDisplayedResults t.columns =
      (s.provider p).maxDisplayedResults s.columns := by
    rw [Provider.maxDisplayedResults.eq_def, Provider.maxDisplayedResults.eq_def,
      h.isRemoteProvider, h.columns]
  rw [State.limited, State.limited, hmax, Provider.filterResults, Provider.filterResults,
    h.isRemoteProvider]

theorem Fits.congr {m : Metas} (h : s.Fits m) (hkeeps : s.Keeps t m.provider)
    (hcancelled : (s.provider m.provider).display.cancelled = false →
      (t.provider m.provider).display.cancelled = false)
    (hcache : (s.provider m.provider).display.resultDisplays ⊆
      (t.provider m.provider).display.resultDisplays) : t.Fits m where
  cancelled hneeded := hcancelled (h.cancelled hneeded)
  complete r hr := (h.complete r hr).imp_left fun hmem => hcache hmem
  answered := by
    obtain ⟨results, hresults, hmem, heq⟩ := h.answered
    exact ⟨results, hresults, hkeeps.answered hmem, heq.trans (hkeeps.limited results).symm⟩

theorem Shows.congr (h : s.Shows p) (hkeeps : s.Keeps t p) (hterms : t.terms = s.terms)
    (hgen : t.gen = s.gen) (hsame : s.SameShown t p) : t.Shows p := by
  rw [Shows] at h ⊢
  rw [hterms, hgen, hsame.1, hsame.2]
  split at h
  · rwa [if_pos (by assumption)]
  · rw [if_neg (by assumption)]
    obtain ⟨results, hmem, hcontent, hvisible⟩ := h
    refine ⟨results, hkeeps.answered hmem, ?_, hvisible⟩
    exact hcontent.trans (congrArg List.eraseDups (hkeeps.limited results).symm)

theorem shows_of_nil (hterms : s.terms = []) (hcontent : (s.provider p).display.content = [])
    (hvisible : (s.provider p).display.visible = false) : s.Shows p := by
  rw [Shows, if_pos hterms]
  exact ⟨hcontent, hvisible⟩

theorem shows_of_answered (results : List String) (hterms : s.terms ≠ [])
    (hanswered : ⟨p, s.gen, results⟩ ∈ s.answered)
    (hcontent : (s.provider p).display.content = (s.limited p results).eraseDups)
    (hvisible : (s.provider p).display.visible = decide (results ≠ [])) : s.Shows p := by
  rw [Shows, if_neg hterms]
  exact ⟨results, hanswered, hcontent, hvisible⟩

end State

theorem mem_map_erase {α β : Type*} [DecidableEq α] {l : List α} {x : α} {f : α → β} {y : β}
    (h : y ∈ l.map f) (hy : y ≠ f x) : y ∈ (l.erase x).map f := by
  obtain ⟨z, hz, rfl⟩ := List.mem_map.mp h
  have hne : z ≠ x := fun heq => hy (congrArg f heq)
  exact List.mem_map_of_mem ((List.mem_erase_of_ne hne).mpr hz)

theorem map_erase_subset {α β : Type*} [DecidableEq α] {l : List α} {x : α} {f : α → β} :
    (l.erase x).map f ⊆ l.map f :=
  List.map_subset f List.erase_subset

structure Inv (s : State) : Prop where
  fresh : s.stale = false
  subsearch : ∀ r ∈ s.requests, ∀ previous, r.previous = some previous →
    Extends previous.terms r.terms
  known : ∀ p ∈ s.providers, p < s.created
  waits : ∀ w ∈ s.waits, w.1 < s.created ∧ w.2 ≤ s.gen
  starting : s.startingSearch = true → s.searchTimeout = true
  inProgress : ∀ p ∈ s.providers, (s.provider p).searchInProgress = true →
    ∃ w ∈ s.waits, w.1 = p
  idle : s.terms = [] → s.searchTimeout = false ∧ ∀ w ∈ s.waits, w.2 < s.gen
  current : ∀ m ∈ s.metas, m.gen = s.gen → s.Fits m
  shows : s.searchTimeout = false → ∀ p ∈ s.providers, s.Pending p ∨ s.Shows p

theorem Inv.consistent (h : Inv s) : Consistent s where
  __ := h
  settled := by
    rintro ⟨htimeout, hrequests, hmetas⟩
    have hnone : s.waits = [] := State.waits_eq_nil_iff.mpr ⟨hrequests, hmetas⟩
    constructor
    · apply Bool.eq_false_iff.mpr
      intro hprogress
      rw [State.searchInProgress, Bool.or_eq_true, List.any_eq_true] at hprogress
      obtain hstarting | ⟨p, hp, hflag⟩ := hprogress
      · rw [h.starting hstarting] at htimeout
        cases htimeout
      · obtain ⟨w, hw, -⟩ := h.inProgress p hp hflag
        rw [hnone] at hw
        cases hw
    · intro p hp
      obtain hpending | hshows := h.shows htimeout p hp
      · rw [State.Pending, hnone] at hpending
        cases hpending
      · exact hshows

/-! ## What is typed -/

section SetTerms

theorem Inv.advance (h : Inv s) {terms : List String} {isSubSearch : Bool} (hterms : terms ≠ []) :
    Inv { s with
      gen := s.gen + 1
      startingSearch := true
      isSubSearch := isSubSearch
      terms := terms
      searchTimeout := true } where
  __ := h
  waits w hw := ⟨(h.waits w hw).1, Nat.le_succ_of_le (h.waits w hw).2⟩
  starting _ := rfl
  idle hnil := absurd hnil hterms
  current m hm hgen := by
    have hle := (h.waits _ (State.mem_waits_of_metas hm)).2
    exact absurd (show m.gen = s.gen + 1 from hgen) (by omega)
  shows htimeout := by cases htimeout

theorem Inv.reset (h : Inv s) : Inv { s with gen := s.gen + 1 }.reset where
  __ := h
  waits w hw := ⟨(h.waits w hw).1, Nat.le_succ_of_le (h.waits w hw).2⟩
  starting hstarting := by cases hstarting
  inProgress p hp hflag := by
    refine h.inProgress p hp ?_
    rw [State.reset, State.clearDisplay] at hflag
    simpa only [if_pos (show p ∈ s.providers from hp)] using hflag
  idle _ := ⟨rfl, fun w hw => Nat.lt_succ_of_le (h.waits w hw).2⟩
  current m hm hgen := by
    have hle := (h.waits _ (State.mem_waits_of_metas hm)).2
    exact absurd (show m.gen = s.gen + 1 from hgen) (by omega)
  shows _ p hp := by
    right
    apply State.shows_of_nil rfl <;> rw [State.reset, State.clearDisplay] <;>
      simp only [if_pos (show p ∈ s.providers from hp), Display.clear]

theorem Inv.setTerms (h : Inv s) (terms : List String) : Inv (s.setTerms terms) := by
  rw [State.setTerms]
  by_cases hsame : searchString terms = searchString s.terms
  · rwa [if_pos hsame]
  · rw [if_neg hsame]
    by_cases hnil : terms = []
    · rw [if_pos hnil]
      exact h.reset
    · rw [if_neg hnil]
      exact h.advance hnil

end SetTerms

/-! ## The search starts -/

section DoSearch

/-- The results of the last search that a sub-search is given were obtained for terms that the
current ones extend. -/
def State.SearchFits (s : State) : Prop :=
  s.isSubSearch = true → ∀ p ∈ s.providers, ∀ previous,
    s.results (s.provider p).id = some previous → Extends previous.terms s.terms
deriving Decidable

theorem foldl_doProviderSearch (previous : String → Option Recorded) (l : List ℕ) (s : State) :
    l.foldl (State.doProviderSearch previous) s =
      { s with
        provider := fun p =>
          if p ∈ l then { s.provider p with searchInProgress := true } else s.provider p
        requests := s.requests ++ l.map (s.request previous) } := by
  induction l generalizing s with
  | nil => simp
  | cons p l ih =>
    rw [List.foldl_cons, ih]
    have hrequest : ∀ q, (s.doProviderSearch previous p).request previous q =
        s.request previous q := by
      intro q
      simp only [State.request, State.doProviderSearch, State.setSearchInProgress]
      by_cases hq : q = p
      · subst hq
        rw [State.setProvider_self]
        rfl
      · rw [State.setProvider_other _ _ hq]
        rfl
    have hprovider : ∀ q, (if q ∈ l then
          { (s.doProviderSearch previous p).provider q with searchInProgress := true }
        else (s.doProviderSearch previous p).provider q) =
        if q ∈ p :: l then { s.provider q with searchInProgress := true } else s.provider q := by
      intro q
      simp only [State.doProviderSearch, State.setSearchInProgress]
      by_cases hq : q = p
      · subst hq
        rw [State.setProvider_self, if_pos List.mem_cons_self, ite_self]
      · rw [State.setProvider_other _ _ hq]
        simp only [List.mem_cons, hq, false_or]
    simp only [funext hrequest, funext hprovider]
    simp only [State.doProviderSearch, State.setSearchInProgress, State.setProvider, List.map_cons,
      List.append_assoc, List.cons_append, List.nil_append]

/-- `p` while its answer is awaited. -/
def Provider.searching (p : Provider) : Provider := { p with searchInProgress := true }

theorem State.doSearch_eq (s : State) : s.doSearch =
      { s with
        startingSearch := false
        results := fun _ => none
        searchTimeout := false
        provider := fun p =>
          if p ∈ s.providers then (s.provider p).searching else s.provider p
        requests := s.requests ++ s.providers.map (s.request s.results) } := by
  rw [State.doSearch, foldl_doProviderSearch]
  rfl

theorem Inv.doSearch (h : Inv s) (htimeout : s.searchTimeout = true) (hfits : s.SearchFits) :
    Inv s.doSearch := by
  have hterms : s.terms ≠ [] := by
    intro hnil
    have hidle := (h.idle hnil).1
    rw [htimeout] at hidle
    cases hidle
  have hwaits : ∀ w, w ∈ s.doSearch.waits ↔
      w ∈ s.waits ∨ ∃ p ∈ s.providers, w = (p, s.gen) := by
    intro w
    rw [State.doSearch_eq]
    simp only [State.waits, List.map_append, List.map_map, List.mem_append, List.mem_map,
      Function.comp_apply, State.request]
    grind
  have hdisplay : ∀ p, (s.doSearch.provider p).display = (s.provider p).display ∧
      s.Keeps s.doSearch p := by
    intro p
    rw [State.doSearch_eq]
    constructor
    · dsimp only
      split <;> rfl
    · refine ⟨rfl, List.Subset.refl _, ?_⟩
      dsimp only
      split <;> rfl
  rw [State.doSearch_eq] at hdisplay hwaits ⊢
  refine
    { h with
      subsearch := fun r hr previous hprevious => ?_
      waits := fun w hw => ?_
      starting := fun hstarting => by cases hstarting
      inProgress := fun p hp _ => ⟨(p, s.gen), (hwaits _).mpr (Or.inr ⟨p, hp, rfl⟩), rfl⟩
      idle := fun hnil => absurd hnil hterms
      current := fun m hm hgen => ?_
      shows := fun _ p hp => Or.inl ((hwaits _).mpr (Or.inr ⟨p, hp, rfl⟩)) }
  · -- a request of before, or one of the new ones
    obtain hr | hr := List.mem_append.mp hr
    · exact h.subsearch r hr previous hprevious
    · obtain ⟨p, hp, rfl⟩ := List.mem_map.mp hr
      rw [State.request] at hprevious
      dsimp only at hprevious
      split at hprevious
      · exact hfits (by assumption) p hp previous hprevious
      · cases hprevious
  · obtain hw | ⟨p, hp, rfl⟩ := (hwaits w).mp hw
    · exact h.waits w hw
    · exact ⟨h.known p hp, Nat.le_refl _⟩
  · have hsame := hdisplay m.provider
    refine (h.current m hm hgen).congr hsame.2 ?_ ?_
    · rw [hsame.1]
      exact id
    · rw [hsame.1]
      exact List.Subset.refl _

end DoSearch

/-! ## The providers are loaded again -/

section Reload

theorem Inv.unregister (h : Inv s) (keep : ℕ → Bool) :
    Inv { s with providers := s.providers.filter keep } where
  __ := h
  known p hp := h.known p (List.mem_of_mem_filter hp)
  inProgress p hp := h.inProgress p (List.mem_of_mem_filter hp)
  current m hm hgen :=
    (h.current m hm hgen).congr ⟨rfl, List.Subset.refl _, rfl⟩ id (List.Subset.refl _)
  shows htimeout p hp := h.shows htimeout p (List.mem_of_mem_filter hp)

theorem Inv.registerProvider (h : Inv s) (hquiet : s.terms = [] ∨ s.searchTimeout = true)
    (shouldShowApp : String → Bool) (appId : String) :
    Inv (s.registerProvider shouldShowApp appId) := by
  rw [State.registerProvider]
  by_cases hshown : shouldShowApp appId = true
  · rw [if_pos hshown]
    -- what is known already is not the new provider
    have hother : ∀ p, p < s.created →
        (s.setProvider s.created ⟨appId, true, false, Display.new⟩).provider p = s.provider p :=
      fun p hp => State.setProvider_other _ _ (Nat.ne_of_lt hp)
    have hkeeps : ∀ p, p < s.created → s.Keeps
        { s.setProvider s.created ⟨appId, true, false, Display.new⟩ with
          created := s.created + 1
          providers := s.providers ++ [s.created] } p := fun p hp =>
      ⟨rfl, List.Subset.refl _, congrArg _ (hother p hp)⟩
    refine
      { h with
        known := fun p hp => ?_
        waits := fun w hw => ⟨Nat.lt_succ_of_lt (h.waits w hw).1, (h.waits w hw).2⟩
        inProgress := fun p hp hflag => ?_
        current := fun m hm hgen => ?_
        shows := fun htimeout p hp => ?_ }
    · obtain hp | hp := List.mem_append.mp hp
      · exact Nat.lt_succ_of_lt (h.known p hp)
      · rw [List.mem_singleton.mp hp]
        exact Nat.lt_succ_self _
    · obtain hp | hp := List.mem_append.mp hp
      · have hflag' : (s.provider p).searchInProgress = true := by
          rw [← hother p (h.known p hp)]
          exact hflag
        exact h.inProgress p hp hflag'
      · rw [List.mem_singleton.mp hp] at hflag
        rw [State.setProvider_self] at hflag
        cases hflag
    · have hlt := (h.waits _ (State.mem_waits_of_metas hm)).1
      apply (h.current m hm hgen).congr (hkeeps m.provider hlt)
      · rw [hother m.provider hlt]
        exact id
      · rw [hother m.provider hlt]
        exact List.Subset.refl _
    · obtain hp | hp := List.mem_append.mp hp
      · refine (h.shows htimeout p hp).imp id fun hshows => ?_
        apply hshows.congr (hkeeps p (h.known p hp)) rfl rfl
        have heq := hother p (h.known p hp)
        exact ⟨congrArg (fun x => x.display.content) heq, congrArg (fun x => x.display.visible) heq⟩
      · obtain hnil | hwaiting := hquiet
        · right
          rw [List.mem_singleton.mp hp]
          refine State.shows_of_nil
            (s := { s.setProvider s.created ⟨appId, true, false, Display.new⟩ with
              created := s.created + 1
              providers := s.providers ++ [s.created] }) hnil ?_ ?_ <;>
            rw [State.setProvider_self] <;> rfl
        · rw [show s.searchTimeout = false from htimeout] at hwaiting
          cases hwaiting
  · rwa [if_neg hshown]

theorem terms_registerProvider (s : State) (shouldShowApp : String → Bool) (id : String) :
    (s.registerProvider shouldShowApp id).terms = s.terms ∧
      (s.registerProvider shouldShowApp id).searchTimeout = s.searchTimeout := by
  rw [State.registerProvider]
  split <;> exact ⟨rfl, rfl⟩

theorem Inv.foldl_registerProvider (h : Inv s) (hquiet : s.terms = [] ∨ s.searchTimeout = true)
    (shouldShowApp : String → Bool) (ids : List String) :
    Inv (ids.foldl (State.registerProvider shouldShowApp) s) := by
  induction ids generalizing s with
  | nil => exact h
  | cons id ids ih =>
    obtain ⟨hterms, htimeout⟩ := terms_registerProvider s shouldShowApp id
    exact ih (h.registerProvider hquiet shouldShowApp id) (by rwa [hterms, htimeout])

theorem foldl_registerProvider_of_none {shouldShowApp : String → Bool} {ids : List String}
    (hnone : ∀ id ∈ ids, shouldShowApp id = false) (s : State) :
    ids.foldl (State.registerProvider shouldShowApp) s = s := by
  induction ids with
  | nil => rfl
  | cons id ids ih =>
    have hhidden : ¬ shouldShowApp id = true := by
      rw [hnone id List.mem_cons_self]
      exact Bool.false_ne_true
    rw [List.foldl_cons, State.registerProvider, if_neg hhidden]
    exact ih fun id' hid' => hnone id' (List.mem_cons_of_mem _ hid')

theorem Inv.reloadRemoteProviders (h : Inv s) {ids : List String} {shouldShowApp : String → Bool}
    (hquiet : s.terms = [] ∨ s.searchTimeout = true ∨ ∀ id ∈ ids, shouldShowApp id = false) :
    Inv (s.reloadRemoteProviders ids shouldShowApp) := by
  have hleft := h.unregister fun p => !(s.provider p).isRemoteProvider
  rw [State.reloadRemoteProviders]
  obtain hnil | hwaiting | hnone := hquiet
  · exact hleft.foldl_registerProvider (Or.inl hnil) shouldShowApp ids
  · exact hleft.foldl_registerProvider (Or.inr hwaiting) shouldShowApp ids
  · rwa [foldl_registerProvider_of_none hnone]

theorem Inv.new (columns : Option ℕ) (ids : List String) (shouldShowApp : String → Bool) :
    Inv (State.new columns ids shouldShowApp) := by
  apply Inv.reloadRemoteProviders _ (Or.inl rfl)
  exact
    { fresh := rfl
      subsearch := fun r hr => by cases hr
      known := fun p hp => by
        rw [List.mem_singleton.mp hp]
        exact Nat.one_pos
      waits := fun w hw => by cases hw
      starting := fun hstarting => by cases hstarting
      inProgress := fun p _ hflag => by cases hflag
      idle := fun _ => ⟨rfl, fun w hw => by cases hw⟩
      current := fun m hm => by cases hm
      shows := fun _ p _ => Or.inr (State.shows_of_nil rfl rfl rfl) }

end Reload

/-! ## The answers -/

section Answers

theorem State.note_stale_iff (p gen : ℕ) : (s.note p gen t).stale = false ↔
    s.stale = false ∧ (p ∈ s.providers → gen ≠ s.gen → s.SameShown t p) := by
  rw [State.note, Bool.or_eq_false_iff, decide_eq_false_iff_not]
  refine and_congr_right fun _ => ?_
  grind

/-- In `t` the one answer of `g` for `p` is no longer awaited, and the display of `p` is the only
one that may have changed. -/
structure Ends (s t : State) (p g : ℕ) : Prop where
  terms : t.terms = s.terms
  gen : t.gen = s.gen
  startingSearch : t.startingSearch = s.startingSearch
  searchTimeout : t.searchTimeout = s.searchTimeout
  providers : t.providers = s.providers
  created : t.created = s.created
  requests : t.requests ⊆ s.requests
  metas : t.metas ⊆ s.metas
  waits : ∀ w ∈ s.waits, w ≠ (p, g) → w ∈ t.waits
  other : ∀ q, q ≠ p → t.provider q = s.provider q
  keeps : s.Keeps t p
  searchInProgress : (t.provider p).searchInProgress = false
  cancelled : (t.provider p).display.cancelled = (s.provider p).display.cancelled
  resultDisplays : (s.provider p).display.resultDisplays ⊆ (t.provider p).display.resultDisplays

theorem Ends.keeps_all {g : ℕ} (h : Ends s t p g) (q : ℕ) : s.Keeps t q := by
  by_cases hq : q = p
  · rw [hq]
    exact h.keeps
  · exact ⟨h.keeps.columns, h.keeps.answered, congrArg Provider.isRemoteProvider (h.other q hq)⟩

theorem waits_subset (hrequests : t.requests ⊆ s.requests) (hmetas : t.metas ⊆ s.metas) :
    t.waits ⊆ s.waits := by
  intro w hw
  obtain hw | hw := List.mem_append.mp hw
  · exact List.mem_append_left _ (List.map_subset _ hrequests hw)
  · exact List.mem_append_right _ (List.map_subset _ hmetas hw)

theorem Inv.ends {g : ℕ} (h : Inv s) (hends : Ends s t p g) (hstale : t.stale = false)
    (hcurrent : p ∈ s.providers → g = s.gen → t.Shows p)
    (hsame : p ∈ s.providers → g ≠ s.gen → s.SameShown t p) : Inv t := by
  have hwaits := waits_subset hends.requests hends.metas
  have hkeeps := hends.keeps_all
  refine
    { fresh := hstale
      subsearch := fun r hr => h.subsearch r (hends.requests hr)
      known := fun q hq => ?_
      waits := fun w hw => ?_
      starting := ?_
      inProgress := fun q hq hflag => ?_
      idle := fun hnil => ?_
      current := fun m hm hgen => ?_
      shows := fun htimeout q hq => ?_ }
  · rw [hends.providers] at hq
    rw [hends.created]
    exact h.known q hq
  · rw [hends.created, hends.gen]
    exact h.waits w (hwaits hw)
  · rw [hends.startingSearch, hends.searchTimeout]
    exact h.starting
  · -- a provider that is still searching is not `p`, so what it awaits is awaited still
    have hne : q ≠ p := by
      rintro rfl
      rw [hends.searchInProgress] at hflag
      cases hflag
    rw [hends.providers] at hq
    rw [hends.other q hne] at hflag
    obtain ⟨w, hw, rfl⟩ := h.inProgress q hq hflag
    exact ⟨w, hends.waits w hw fun heq => hne (congrArg Prod.fst heq), rfl⟩
  · rw [hends.terms] at hnil
    rw [hends.searchTimeout, hends.gen]
    exact ⟨(h.idle hnil).1, fun w hw => (h.idle hnil).2 w (hwaits hw)⟩
  · rw [hends.gen] at hgen
    refine (h.current m (hends.metas hm) hgen).congr (hkeeps _) ?_ ?_
    · by_cases hm : m.provider = p
      · rw [hm, hends.cancelled]
        exact id
      · rw [hends.other _ hm]
        exact id
    · by_cases hm : m.provider = p
      · rw [hm]
        exact hends.resultDisplays
      · rw [hends.other _ hm]
        exact List.Subset.refl _
  · rw [hends.searchTimeout] at htimeout
    rw [hends.providers] at hq
    by_cases hcase : q = p ∧ g = s.gen
    · obtain ⟨rfl, hg⟩ := hcase
      exact Or.inr (hcurrent hq hg)
    · refine (h.shows htimeout q hq).imp (fun hpending => ?_) fun hshows => ?_
      · rw [State.Pending, hends.gen]
        refine hends.waits _ hpending fun heq => hcase ?_
        obtain ⟨hqp, hg⟩ := Prod.mk.inj heq
        exact ⟨hqp, hg.symm⟩
      · apply hshows.congr (hkeeps q) hends.terms hends.gen
        by_cases hqp : q = p
        · subst hqp
          exact hsame hq fun hg => hcase ⟨rfl, hg⟩
        · rw [State.SameShown, hends.other q hqp]
          exact ⟨rfl, rfl⟩

theorem Inv.terms_ne_nil (h : Inv s) {w : ℕ × ℕ} (hw : w ∈ s.waits) (hgen : w.2 = s.gen) :
    s.terms ≠ [] := by
  intro hnil
  have hlt := (h.idle hnil).2 w hw
  omega

theorem Inv.answer_nil (h : Inv s) {r : Request} (hr : r ∈ s.requests)
    (hstale : r.provider ∈ s.providers → r.gen ≠ s.gen →
      (s.provider r.provider).display.content = [] ∧
        (s.provider r.provider).display.visible = false) :
    Inv (s.answer r []) := by
  have hprovider : (s.answer r []).provider r.provider =
      { s.provider r.provider with
        searchInProgress := false
        display := { (s.provider r.provider).display with content := [], visible := false } } := by
    simp only [State.answer, State.note, State.updateResults, if_true, State.setSearchInProgress,
      State.setDisplay, State.setProvider_self]
  have hsame : r.provider ∈ s.providers → r.gen ≠ s.gen →
      s.SameShown (s.answer r []) r.provider := by
    intro hp hgen
    rw [State.SameShown, hprovider]
    exact ⟨(hstale hp hgen).1.symm, (hstale hp hgen).2.symm⟩
  have hends : Ends s (s.answer r []) r.provider r.gen := by
    refine ⟨rfl, rfl, rfl, rfl, rfl, rfl, ?_, List.Subset.refl _, ?_, ?_, ?_, ?_, ?_, ?_⟩
    · exact List.erase_subset
    · intro w hw hne
      obtain hw | hw := List.mem_append.mp hw
      · exact List.mem_append_left _ (mem_map_erase hw hne)
      · exact List.mem_append_right _ hw
    · intro q hq
      simp only [State.answer, State.note, State.updateResults, if_true, State.setSearchInProgress,
        State.setDisplay, State.setProvider_other _ _ hq]
    · refine ⟨rfl, fun a ha => List.mem_cons_of_mem _ ha, ?_⟩
      rw [hprovider]
    · rw [hprovider]
    · rw [hprovider]
    · rw [hprovider]
      exact List.Subset.refl _
  refine h.ends hends ?_ (fun hp hgen => ?_) hsame
  · exact (State.note_stale_iff _ _).mpr ⟨h.fresh, fun hp hgen => hsame hp hgen⟩
  · have hterms := h.terms_ne_nil (State.mem_waits_of_request hr) hgen
    refine State.shows_of_answered (s := s.answer r []) [] hterms ?_ ?_ ?_
    · rw [show (s.answer r []).gen = r.gen from hgen.symm]
      exact List.mem_cons_self
    · rw [hprovider, State.limited, hprovider]
      simp [Provider.filterResults]
    · rw [hprovider]
      rfl

variable (s)

def State.asked (r : Request) (results : List String) : Metas where
  provider := r.provider
  gen := r.gen
  results := s.limited r.provider results
  needed := (s.provider r.provider).display.metasNeeded (s.limited r.provider results)

def State.askedDisplay (r : Request) (results : List String) : Display :=
  let display := (s.provider r.provider).display
  if (s.asked r results).needed = [] then display else { display with cancelled := false }

theorem State.answer_of_ne_nil (r : Request) {results : List String}
    (hresults : results ≠ []) : s.answer r results =
      s.note r.provider r.gen
        { s.setDisplay r.provider (s.askedDisplay r results) with
          requests := s.requests.erase r
          results := Function.update s.results (s.provider r.provider).id (some ⟨results, r.terms⟩)
          answered := ⟨r.provider, r.gen, results⟩ :: s.answered
          metas := s.metas ++ [s.asked r results] } := by
  simp only [State.answer, State.updateResults, if_neg hresults]
  rfl

theorem State.askedDisplay_same (r : Request) (results : List String) :
    (s.askedDisplay r results).content = (s.provider r.provider).display.content ∧
      (s.askedDisplay r results).visible = (s.provider r.provider).display.visible ∧
      (s.askedDisplay r results).resultDisplays =
        (s.provider r.provider).display.resultDisplays := by
  rw [State.askedDisplay]
  split <;> exact ⟨rfl, rfl, rfl⟩

theorem State.askedDisplay_cancelled (r : Request) (results : List String)
    (h : (s.provider r.provider).display.cancelled = false ∨ (s.asked r results).needed ≠ []) :
    (s.askedDisplay r results).cancelled = false := by
  rw [State.askedDisplay]
  split
  · next hneeded => exact h.resolve_right fun hne => hne hneeded
  · rfl

variable {s}

theorem Inv.answer_of_ne_nil (h : Inv s) {r : Request} (hr : r ∈ s.requests) {results : List String}
    (hresults : results ≠ []) : Inv (s.answer r results) := by
  have hasked := s.askedDisplay_same r results
  rw [State.answer_of_ne_nil s r hresults]
  generalize ht : State.note s r.provider r.gen _ = t
  have hself : t.provider r.provider =
      { s.provider r.provider with display := s.askedDisplay r results } := by
    rw [← ht]
    exact State.setProvider_self ..
  have hother : ∀ q, q ≠ r.provider → t.provider q = s.provider q := by
    intro q hq
    rw [← ht]
    exact State.setProvider_other _ _ hq
  have hsame : ∀ q, s.SameShown t q := by
    intro q
    by_cases hq : q = r.provider
    · subst hq
      rw [State.SameShown, hself]
      exact ⟨hasked.1, hasked.2.1⟩
    · rw [State.SameShown, hother q hq]
      exact ⟨rfl, rfl⟩
  have hkeeps : ∀ q, s.Keeps t q := by
    intro q
    refine ⟨by rw [← ht]; rfl, by rw [← ht]; exact fun a ha => List.mem_cons_of_mem _ ha, ?_⟩
    by_cases hq : q = r.provider
    · subst hq
      rw [hself]
    · rw [hother q hq]
  obtain ⟨hrequests, hmetas⟩ : t.requests = s.requests.erase r ∧
      t.metas = s.metas ++ [s.asked r results] := by
    rw [← ht]
    exact ⟨rfl, rfl⟩
  obtain ⟨hterms, hgen, hstarting, htimeout, hproviders, hcreated⟩ : t.terms = s.terms ∧
      t.gen = s.gen ∧ t.startingSearch = s.startingSearch ∧ t.searchTimeout = s.searchTimeout ∧
      t.providers = s.providers ∧ t.created = s.created := by
    rw [← ht]
    exact ⟨rfl, rfl, rfl, rfl, rfl, rfl⟩
  -- the metas are awaited in place of the result set
  have hwaits : ∀ w, w ∈ t.waits ↔ w ∈ s.waits := by
    intro w
    simp only [State.waits, hrequests, hmetas, List.map_append, List.mem_append, List.map_cons,
      List.map_nil, List.mem_singleton]
    constructor
    · rintro (hw | hw | rfl)
      · exact Or.inl (map_erase_subset hw)
      · exact Or.inr hw
      · exact Or.inl (List.mem_map_of_mem hr)
    · rintro (hw | hw)
      · by_cases heq : w = (r.provider, r.gen)
        · exact Or.inr (Or.inr heq)
        · exact Or.inl (mem_map_erase hw heq)
      · exact Or.inr (Or.inl hw)
  have hfits : t.Fits (s.asked r results) := by
    refine ⟨fun hneeded => ?_, fun x hx => ?_, results, hresults, ?_, ?_⟩
    · rw [show (s.asked r results).provider = r.provider from rfl, hself]
      exact s.askedDisplay_cancelled r results (Or.inr hneeded)
    · rw [show (s.asked r results).provider = r.provider from rfl, hself]
      rw [hasked.2.2]
      by_cases hcached : x ∈ (s.provider r.provider).display.resultDisplays
      · exact Or.inl hcached
      · exact Or.inr (List.mem_filter.mpr ⟨hx, by simpa using hcached⟩)
    · rw [← ht]
      exact List.mem_cons_self
    · exact ((hkeeps r.provider).limited results).symm
  refine
    { fresh := ?_
      subsearch := fun q hq => ?_
      known := ?_
      waits := fun w hw => ?_
      starting := ?_
      inProgress := fun q hq hflag => ?_
      idle := fun hnil => ?_
      current := fun m hm hcurrent => ?_
      shows := fun hsearch q hq => ?_ }
  · rw [← ht]
    refine (State.note_stale_iff _ _).mpr ⟨h.fresh, fun _ _ => ?_⟩
    have hsame := hsame r.provider
    rw [← ht] at hsame
    exact hsame
  · rw [hrequests] at hq
    exact h.subsearch q (List.mem_of_mem_erase hq)
  · rw [hproviders, hcreated]
    exact h.known
  · rw [hcreated, hgen]
    exact h.waits w ((hwaits w).mp hw)
  · rw [hstarting, htimeout]
    exact h.starting
  · rw [hproviders] at hq
    have hflag' : (s.provider q).searchInProgress = true := by
      by_cases hqr : q = r.provider
      · subst hqr
        rw [hself] at hflag
        exact hflag
      · rwa [hother q hqr] at hflag
    obtain ⟨w, hw, hwq⟩ := h.inProgress q hq hflag'
    exact ⟨w, (hwaits w).mpr hw, hwq⟩
  · rw [hterms] at hnil
    rw [htimeout, hgen]
    exact ⟨(h.idle hnil).1, fun w hw => (h.idle hnil).2 w ((hwaits w).mp hw)⟩
  · rw [hmetas] at hm
    rw [hgen] at hcurrent
    obtain hm | hm := List.mem_append.mp hm
    · refine (h.current m hm hcurrent).congr (hkeeps _) ?_ ?_
      · by_cases hqr : m.provider = r.provider
        · rw [hqr, hself]
          exact fun hfalse => s.askedDisplay_cancelled r results (Or.inl hfalse)
        · rw [hother _ hqr]
          exact id
      · by_cases hqr : m.provider = r.provider
        · rw [hqr, hself]
          dsimp only
          rw [hasked.2.2]
          exact List.Subset.refl _
        · rw [hother _ hqr]
          exact List.Subset.refl _
    · rw [List.mem_singleton.mp hm]
      exact hfits
  · rw [htimeout] at hsearch
    rw [hproviders] at hq
    refine (h.shows hsearch q hq).imp (fun hpending => ?_) fun hshows => ?_
    · rw [State.Pending, hgen]
      exact (hwaits _).mpr hpending
    · exact hshows.congr (hkeeps q) hterms hgen (hsame q)

theorem Inv.receive (h : Inv s) {m : Metas} {metas : List Meta} (hm : m ∈ s.metas)
    (hcurrent : m.provider ∈ s.providers → m.gen = s.gen →
      ¬ Refused (s.provider m.provider).display m metas)
    (hstale : m.provider ∈ s.providers → m.gen ≠ s.gen →
      Harmless (s.provider m.provider).display m metas) : Inv (s.receive m metas) := by
  have hprovider : (s.receive m metas).provider m.provider =
      { s.provider m.provider with
        searchInProgress := false
        display := (s.provider m.provider).display.receive (s.provider m.provider).id m metas } := by
    simp only [State.receive, State.note, State.setSearchInProgress, State.setDisplay,
      State.setProvider_self]
  have hsame : m.provider ∈ s.providers → m.gen ≠ s.gen →
      s.SameShown (s.receive m metas) m.provider := by
    intro hp hgen
    rw [State.SameShown, hprovider]
    exact (Display.receive_same_iff _).mpr (hstale hp hgen)
  have hends : Ends s (s.receive m metas) m.provider m.gen := by
    refine ⟨rfl, rfl, rfl, rfl, rfl, rfl, List.Subset.refl _, ?_, ?_, ?_, ?_, ?_, ?_, ?_⟩
    · exact List.erase_subset
    · intro w hw hne
      obtain hw | hw := List.mem_append.mp hw
      · exact List.mem_append_left _ hw
      · exact List.mem_append_right _ (mem_map_erase hw hne)
    · intro q hq
      simp only [State.receive, State.note, State.setSearchInProgress, State.setDisplay,
        State.setProvider_other _ _ hq]
    · refine ⟨rfl, List.Subset.refl _, ?_⟩
      rw [hprovider]
    · rw [hprovider]
    · rw [hprovider]
      exact Display.receive_cancelled _
    · rw [hprovider]
      exact fun r hr => Display.mem_receive _ hr
  refine h.ends hends ?_ (fun hp hgen => ?_) hsame
  · exact (State.note_stale_iff _ _).mpr ⟨h.fresh, fun hp hgen => hsame hp hgen⟩
  · have hterms := h.terms_ne_nil (State.mem_waits_of_metas hm) hgen
    obtain ⟨-, hcomplete, results, hresults, hanswered, hlimited⟩ := h.current m hm hgen
    have hreceive := Display.receive_of_complete (hcurrent hp hgen) hcomplete
      (s.provider m.provider).id
    refine State.shows_of_answered (s := s.receive m metas) results hterms ?_ ?_ ?_
    · rw [show (s.receive m metas).gen = m.gen from hgen.symm]
      exact hanswered
    · rw [hends.keeps.limited, hprovider, hreceive, hlimited]
    · rw [hprovider, hreceive]
      exact (decide_eq_true hresults).symm

end Answers

/-! ## Careful runs -/

section Runs

/-- What the condition asks of an event.

* A search starts with results of terms that the current ones extend, if they are given on.
* Remote providers are loaded when there are no terms or the search for them has not started.
* A result set for older terms is not empty, or the display is.
* Metas for the current terms are not refused, and those for older ones leave the display as it is. -/
def Careful (s : State) : Event → Prop
  | .setTerms _ => True
  | .timeout => s.SearchFits
  | .activateDefault => s.searchTimeout = true → s.SearchFits
  | .reload ids shouldShowApp =>
    s.terms = [] ∨ s.searchTimeout = true ∨ ∀ id ∈ ids, shouldShowApp id = false
  | .answer r results =>
    r.provider ∈ s.providers → r.gen ≠ s.gen → results = [] →
      (s.provider r.provider).display.content = [] ∧
        (s.provider r.provider).display.visible = false
  | .metas m metas =>
    m.provider ∈ s.providers →
      (m.gen = s.gen → ¬ Refused (s.provider m.provider).display m metas) ∧
        (m.gen ≠ s.gen → Harmless (s.provider m.provider).display m metas)

theorem Inv.step {e : Event} (h : Inv s) (hcareful : Careful s e) (hstep : step s e = some t) :
    Inv t := by
  cases e with
  | setTerms terms =>
    cases hstep
    exact h.setTerms terms
  | timeout =>
    obtain ⟨htimeout, heq⟩ := Option.ite_none_right_eq_some.mp hstep
    cases heq
    exact h.doSearch htimeout hcareful
  | activateDefault =>
    cases hstep
    split
    · next htimeout => exact h.doSearch htimeout (hcareful htimeout)
    · exact h
  | reload ids shouldShowApp =>
    cases hstep
    exact h.reloadRemoteProviders hcareful
  | answer r results =>
    obtain ⟨hr, heq⟩ := Option.ite_none_right_eq_some.mp hstep
    cases heq
    by_cases hresults : results = []
    · subst hresults
      exact h.answer_nil hr fun hp hgen => hcareful hp hgen rfl
    · exact h.answer_of_ne_nil hr hresults
  | metas m metas =>
    obtain ⟨hm, heq⟩ := Option.ite_none_right_eq_some.mp hstep
    cases heq
    exact h.receive hm (fun hp => (hcareful hp).1) fun hp => (hcareful hp).2

instance (s : State) (e : Event) : Decidable (Careful s e) := by
  unfold Careful
  split <;> infer_instance

def start : State := State.new none ["files"] fun _ => true

end Runs

end Search
