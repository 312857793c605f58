import GnomeShellMobile.Runs.Basic
import Mathlib.Data.Int.Cast.Basic
import Mathlib.Data.List.Nodup
import Mathlib.Logic.Function.Basic

/-!
# AppSwitcherPopup — the lists of the app switcher and what is selected in them

`AppSwitcherPopup`, `AppSwitcher` and `ThumbnailSwitcher` in `js/ui/altTab.js`, over `SwitcherPopup` and
`SwitcherList` in `js/ui/switcherPopup.js`. The popup keeps an index into the list of apps and one into
the windows of the app selected; the lists keep what they highlight. `none` is a `TypeError`: a list
is indexed outside its range, and what comes out is used.

* **`Lists`** — what holds of the lists of thumbnails, also of those that are fading out.
* **`select_spec`** — the one function that selects, from any state with such lists.
-/

namespace AppSwitcherPopup

variable {id : ℕ} {icon : AppIcon}

abbrev App := ℕ

abbrev Window := ℕ

structure AppIcon where
  app : App
  cachedWindows : List Window

/-- A `ThumbnailSwitcher`. Its `_windows` is the array `cachedWindows` of the icon of the app itself,
not a copy of it. -/
structure ThumbnailSwitcher where
  app : App
  clones : List Window
  /-- `_items`, each by the window it was made for; `_labels` is spliced with it. -/
  items : List Window
  highlighted : Option ℕ
  /-- It is being eased out by `_destroyThumbnails`. -/
  fading : Bool

/-- The popup and its lists; an index of -1 is `none`. -/
structure State where
  /-- `_items` of the popup, which is `icons` of the `AppSwitcher`; its `_items` and `_arrows` are
  spliced with it. -/
  icons : List AppIcon
  selectedIndex : ℕ
  currentWindow : Option ℕ
  thumbnails : Option ℕ
  thumbnailsFocused : Bool
  thumbnailTimeout : Bool
  thumbnailsVisible : Bool
  mouseActive : Bool
  /-- `_highlighted` and `_delayedHighlighted` of the `AppSwitcher`. -/
  highlighted : Option ℕ
  delayedHighlighted : Option ℕ
  /-- The index that the timeout of `_mouseTimeOutId` was started with. -/
  mouseTimeOut : Option ℕ
  /-- The lists of thumbnails that are not destroyed, in the order of their creation. -/
  switchers : ℕ → Option ThumbnailSwitcher
  nextId : ℕ
  /-- The windows without a `get_compositor_private()`. -/
  destroyed : List Window
  isOpen : Bool

namespace State

/-- `mod`; there is no remainder by 0, and no list has an item at `NaN`. -/
def mod (a : ℤ) (b : ℕ) : Option ℕ := if b = 0 then none else some ((a + b) % b).toNat

/-! ## The lists -/

variable (s : State)

/-- `highlight` of the `AppSwitcher`. -/
def highlight (n : ℕ) : Option State :=
  if n < s.icons.length then some { s with highlighted := some n } else none

def highlightThumbnail (id n : ℕ) : Option State :=
  (s.switchers id).bind fun t =>
    if n < t.items.length then
      some { s with switchers := Function.update s.switchers id (some { t with highlighted := some n }) }
    else none

/-- `_destroyThumbnails`; the items are asked for the one selected. -/
def destroyThumbnails (id : ℕ) : Option State :=
  if s.selectedIndex < s.icons.length then
    some { s with
      switchers := Function.update s.switchers id
        ((s.switchers id).map fun t => { t with fading := true })
      thumbnails := none }
  else none

/-- `_createThumbnails`, with the `addClones` of the allocation that it forces. -/
def createThumbnails : Option State :=
  s.icons[s.selectedIndex]?.map fun icon =>
    { s with
      switchers := Function.update s.switchers s.nextId (some {
        app := icon.app
        clones := icon.cachedWindows.filter (· ∉ s.destroyed)
        items := icon.cachedWindows
        highlighted := none
        fading := false })
      nextId := s.nextId + 1
      thumbnails := some s.nextId }

def destroyList (id : ℕ) : State :=
  { s with
    switchers := Function.update s.switchers id none
    thumbnails := none
    thumbnailsFocused := false }

/-! ## `_select` -/

def leave (app : ℕ) (window : Option ℕ) : Option State :=
  if app ≠ s.selectedIndex ∨ window = none then
    match s.thumbnails with
    | some id => s.destroyThumbnails id
    | none => some s
  else some s

def mark (app : ℕ) (window : Option ℕ) (forceAppFocus : Bool) : Option State :=
  highlight { s with
    thumbnailTimeout := false
    thumbnailsFocused := window.isSome && !forceAppFocus
    selectedIndex := app
    currentWindow := window.filter (· ≠ 0) } app

def showWindow (window : ℕ) : Option State :=
  (if s.thumbnails.isNone then s.createThumbnails else some s).bind fun s =>
    s.thumbnails.bind fun id => highlightThumbnail { s with currentWindow := some window } id window

def startTimeout (forceAppFocus : Bool) : Option State :=
  s.icons[s.selectedIndex]?.map fun icon =>
    if icon.cachedWindows.length > 1 ∧ !forceAppFocus then { s with thumbnailTimeout := true } else s

def select (app : ℕ) (window : Option ℕ) (forceAppFocus : Bool) : Option State :=
  (s.leave app window).bind fun s => (s.mark app window forceAppFocus).bind fun s =>
    match window with
    | some window => s.showWindow window
    | none => s.startTimeout forceAppFocus

end State

/-! ## What holds of the lists -/

variable (windowApp : Window → App)

structure Icons (destroyed : List Window) (icons : List AppIcon) : Prop where
  apps_nodup : (icons.map AppIcon.app).Nodup
  windows_ne : ∀ icon ∈ icons, icon.cachedWindows ≠ []
  windows_nodup : ∀ icon ∈ icons, icon.cachedWindows.Nodup
  windows_app : ∀ icon ∈ icons, ∀ w ∈ icon.cachedWindows, windowApp w = icon.app
  windows_exist : ∀ icon ∈ icons, ∀ w ∈ icon.cachedWindows, w ∉ destroyed

structure Clones (icons : List AppIcon) (t : ThumbnailSwitcher) : Prop where
  items_eq : t.items = t.clones
  nodup : t.clones.Nodup
  windows_app : ∀ w ∈ t.clones, windowApp w = t.app
  windows_eq : ∀ icon ∈ icons, icon.app = t.app → t.clones = icon.cachedWindows

structure Lists (icons : List AppIcon)
    (switchers : ℕ → Option ThumbnailSwitcher) (nextId : ℕ) (thumbnails : Option ℕ) : Prop where
  fresh : ∀ id, nextId ≤ id → switchers id = none
  clones : ∀ id t, switchers id = some t → Clones windowApp icons t
  open_iff : ∀ id t, switchers id = some t → (t.fading = false ↔ thumbnails = some id)
  open_some : ∀ id, thumbnails = some id → ∃ t, switchers id = some t

structure Selected (s : State) (icon : AppIcon) : Prop where
  get : s.icons[s.selectedIndex]? = some icon
  highlighted : s.highlighted = some s.selectedIndex
  closed : s.thumbnails = none → s.currentWindow = none ∧ s.thumbnailsFocused = false
  opened : ∀ id t, s.thumbnails = some id → s.switchers id = some t →
    t.app = icon.app ∧ t.highlighted = s.currentWindow
  current : ∀ w, s.currentWindow = some w → w < icon.cachedWindows.length

structure Inv (s : State) : Prop where
  icons : Icons windowApp s.destroyed s.icons
  lists : Lists windowApp s.icons s.switchers s.nextId s.thumbnails
  selected : ∃ icon, Selected s icon

def Keeps (f g : ℕ → Option ThumbnailSwitcher) : Prop :=
  ∀ id t, f id = some t → ∃ t', g id = some t' ∧ t'.clones = t.clones ∧ (t.fading = true → t'.fading = true)

theorem Keeps.refl (f : ℕ → Option ThumbnailSwitcher) : Keeps f f := fun _ t ht => ⟨t, ht, rfl, id⟩

theorem Keeps.trans {f g h : ℕ → Option ThumbnailSwitcher} (hfg : Keeps f g) (hgh : Keeps g h) :
    Keeps f h := by
  intro id t ht
  obtain ⟨t', ht', hclones, hfading⟩ := hfg id t ht
  obtain ⟨t'', ht'', hclones', hfading'⟩ := hgh id t' ht'
  exact ⟨t'', ht'', hclones'.trans hclones, hfading' ∘ hfading⟩

variable {windowApp : Window → App} {icons : List AppIcon} {switchers : ℕ → Option ThumbnailSwitcher}
  {nextId : ℕ} {thumbnails : Option ℕ} {s t : State}

section

variable (h : Lists windowApp icons switchers nextId thumbnails)
include h

theorem Lists.fresh_update
    {t : ThumbnailSwitcher} (ht : switchers id = some t) (new : Option ThumbnailSwitcher) :
    ∀ i, nextId ≤ i → Function.update switchers id new i = none := by
  intro i hi
  have hne : i ≠ id := by
    intro heq
    rw [← heq, h.fresh i hi] at ht
    cases ht
  rw [Function.update_of_ne hne]
  exact h.fresh i hi

theorem Lists.update {icons' : List AppIcon} {t new : ThumbnailSwitcher}
    (ht : switchers id = some t) (hfading : new.fading = t.fading)
    (hnew : Clones windowApp icons' new)
    (hothers : ∀ i u, i ≠ id → switchers i = some u → Clones windowApp icons' u) :
    Lists windowApp icons' (Function.update switchers id (some new)) nextId thumbnails := by
  refine ⟨h.fresh_update ht _, fun i u hu => ?_, fun i u hu => ?_, fun i hi => ?_⟩
  · by_cases hi : i = id
    · rw [hi, Function.update_self] at hu
      cases hu
      exact hnew
    · rw [Function.update_of_ne hi] at hu
      exact hothers i u hi hu
  · by_cases hi : i = id
    · rw [hi, Function.update_self] at hu
      cases hu
      rw [hi, hfading]
      exact h.open_iff id t ht
    · rw [Function.update_of_ne hi] at hu
      exact h.open_iff i u hu
  · obtain ⟨u, hu⟩ := h.open_some i hi
    by_cases heq : i = id
    · rw [heq, Function.update_self]
      exact ⟨new, rfl⟩
    · rw [Function.update_of_ne heq]
      exact ⟨u, hu⟩

theorem Lists.highlight
    {t : ThumbnailSwitcher} (ht : switchers id = some t) (n : Option ℕ) :
    Lists windowApp icons (Function.update switchers id
    (some { t with highlighted := n })) nextId thumbnails := by
  have hclones := h.clones id t ht
  exact h.update ht rfl ⟨hclones.items_eq, hclones.nodup, hclones.windows_app, hclones.windows_eq⟩
    fun i u _ hu => h.clones i u hu

end

theorem Keeps.highlight {t : ThumbnailSwitcher} (ht : switchers id = some t) (n : Option ℕ) :
    Keeps switchers (Function.update switchers id (some { t with highlighted := n })) := by
  intro i u hu
  by_cases hi : i = id
  · subst hi
    rw [ht] at hu
    cases hu
    exact ⟨_, Function.update_self .., rfl, fun hfading => hfading⟩
  · exact ⟨u, by rw [Function.update_of_ne hi]; exact hu, rfl, fun hfading => hfading⟩

theorem Lists.fade (h : Lists windowApp icons switchers nextId thumbnails)
    (hopen : thumbnails = some id) :
    Lists windowApp icons (Function.update switchers id
    ((switchers id).map fun t => { t with fading := true }))
        nextId none ∧
      Keeps switchers (Function.update switchers id
      ((switchers id).map fun t => { t with fading := true })) := by
  obtain ⟨t, ht⟩ := h.open_some id hopen
  rw [ht, Option.map_some]
  refine ⟨⟨h.fresh_update ht _, fun i u hu => ?_, fun i u hu => ?_, fun i hi => nomatch hi⟩, fun i u hu => ?_⟩
  · by_cases hi : i = id
    · rw [hi, Function.update_self] at hu
      cases hu
      have hclones := h.clones id t ht
      exact ⟨hclones.items_eq, hclones.nodup, hclones.windows_app, hclones.windows_eq⟩
    · rw [Function.update_of_ne hi] at hu
      exact h.clones i u hu
  · by_cases hi : i = id
    · rw [hi, Function.update_self] at hu
      cases hu
      simp
    · rw [Function.update_of_ne hi] at hu
      have hiff := h.open_iff i u hu
      rw [hopen] at hiff
      constructor
      · intro hfading
        exact absurd (Option.some.inj (hiff.mp hfading)).symm hi
      · intro hnone
        cases hnone
  · by_cases hi : i = id
    · rw [hi, ht] at hu
      cases hu
      rw [hi, Function.update_self]
      exact ⟨_, rfl, rfl, fun _ => rfl⟩
    · exact ⟨u, by rw [Function.update_of_ne hi]; exact hu, rfl, fun hfading => hfading⟩

theorem Lists.create {destroyed : List Window} (hicons : Icons windowApp destroyed icons)
    (h : Lists windowApp icons switchers nextId none) (hicon : icon ∈ icons) :
    Lists windowApp icons (Function.update switchers nextId
        (some ⟨icon.app, icon.cachedWindows, icon.cachedWindows, none, false⟩)) (nextId + 1) (some nextId) ∧
      Keeps switchers (Function.update switchers nextId
        (some ⟨icon.app, icon.cachedWindows, icon.cachedWindows, none, false⟩)) := by
  have hne : ∀ i u, switchers i = some u → i ≠ nextId := by
    intro i u hu heq
    rw [heq, h.fresh nextId (Nat.le_refl _)] at hu
    cases hu
  refine ⟨⟨fun i hi => ?_, fun i u hu => ?_, fun i u hu => ?_, fun i hi => ?_⟩, fun i u hu => ?_⟩
  · rw [Function.update_of_ne (by omega)]
    exact h.fresh i (by omega)
  · by_cases hi : i = nextId
    · rw [hi, Function.update_self] at hu
      cases hu
      refine ⟨rfl, hicons.windows_nodup icon hicon, hicons.windows_app icon hicon, fun other hother heq => ?_⟩
      rw [List.inj_on_of_nodup_map hicons.apps_nodup hother hicon heq]
    · rw [Function.update_of_ne hi] at hu
      exact h.clones i u hu
  · by_cases hi : i = nextId
    · rw [hi, Function.update_self] at hu
      cases hu
      simp [hi]
    · rw [Function.update_of_ne hi] at hu
      have hiff := h.open_iff i u hu
      constructor
      · intro hfading
        cases hiff.mp hfading
      · intro heq
        exact absurd (Option.some.inj heq).symm hi
  · cases hi
    exact ⟨_, Function.update_self ..⟩
  · exact ⟨u, by rw [Function.update_of_ne (hne i u hu)]; exact hu, rfl, fun hfading => hfading⟩

/-! ## Selecting -/

structure Moved (s : State) (app : ℕ) (window : Option ℕ) (t : State) : Prop where
  icons : t.icons = s.icons
  selectedIndex : t.selectedIndex = app
  currentWindow : t.currentWindow = window
  isOpen : t.isOpen = s.isOpen
  keeps : Keeps s.switchers t.switchers
  stays : app = s.selectedIndex → window ≠ none → ∀ id, s.thumbnails = some id → t.thumbnails = some id

theorem leave_spec (h : Lists windowApp s.icons s.switchers s.nextId s.thumbnails)
    (hin : s.thumbnails ≠ none → s.selectedIndex < s.icons.length) (app : ℕ) (window : Option ℕ) :
    ∃ f th, s.leave app window = some { s with switchers := f, thumbnails := th } ∧
      Lists windowApp s.icons f s.nextId th ∧ Keeps s.switchers f ∧
      (app = s.selectedIndex ∧ window ≠ none ∧ th = s.thumbnails ∧ f = s.switchers ∨
        (app ≠ s.selectedIndex ∨ window = none) ∧ th = none) := by
  unfold State.leave
  by_cases hleave : app ≠ s.selectedIndex ∨ window = none
  · rw [if_pos hleave]
    cases hthumbnails : s.thumbnails with
    | none =>
      rw [hthumbnails] at h
      refine ⟨s.switchers, none, ?_, h, Keeps.refl _, .inr ⟨hleave, rfl⟩⟩
      show some s = some { s with thumbnails := none }
      rw [← hthumbnails]
    | some id =>
      have hlt := hin (by rw [hthumbnails]; exact Option.some_ne_none id)
      obtain ⟨hfade, hkeeps⟩ := h.fade hthumbnails
      refine ⟨_, none, ?_, hfade, hkeeps, .inr ⟨hleave, rfl⟩⟩
      dsimp only
      unfold State.destroyThumbnails
      rw [if_pos hlt]
  · rw [if_neg hleave]
    obtain ⟨happ, hwindow⟩ := not_or.mp hleave
    exact ⟨s.switchers, s.thumbnails, rfl, h, Keeps.refl _, .inl ⟨not_not.mp happ, hwindow, rfl, rfl⟩⟩

section

variable (hicons : Icons windowApp s.destroyed s.icons)
include hicons

theorem highlight_open
    (h : Lists windowApp s.icons s.switchers s.nextId s.thumbnails)
    (hicon : s.icons[s.selectedIndex]? = some icon)
    (hselected : s.highlighted = some s.selectedIndex) (hopen : s.thumbnails = some id)
    {t : ThumbnailSwitcher} (ht : s.switchers id = some t)
    (happ : t.app = icon.app) {w : ℕ} (hw : w < icon.cachedWindows.length)
    (hcurrent : s.currentWindow = some w) :
    ∃ f, s.highlightThumbnail id w = some { s with switchers := f } ∧
      Inv windowApp { s with switchers := f } ∧ Keeps s.switchers f := by
  have hclones := h.clones id t ht
  have hwindows := hclones.windows_eq icon (List.mem_of_getElem? hicon) happ.symm
  refine ⟨Function.update s.switchers id (some { t with highlighted := some w }), ?_,
    ⟨hicons, h.highlight ht (some w), icon, ?_⟩, Keeps.highlight ht (some w)⟩
  · unfold State.highlightThumbnail
    rw [ht, Option.bind_some, if_pos (by rw [hclones.items_eq, hwindows]; exact hw)]
  · refine ⟨hicon, hselected, fun hnone => ?_, fun i u hi hu => ?_, fun v hv => ?_⟩
    · exact absurd (hopen.symm.trans hnone) (Option.some_ne_none id)
    · cases hopen.symm.trans hi
      dsimp only at hu
      rw [Function.update_self] at hu
      cases hu
      exact ⟨happ, hcurrent.symm⟩
    · cases hcurrent.symm.trans hv
      exact hw

theorem createThumbnails_eq
    (hicon : s.icons[s.selectedIndex]? = some icon) : s.createThumbnails = some { s with
      switchers := Function.update s.switchers s.nextId
        (some ⟨icon.app, icon.cachedWindows, icon.cachedWindows, none, false⟩)
      nextId := s.nextId + 1
      thumbnails := some s.nextId } := by
  have hclones : icon.cachedWindows.filter (· ∉ s.destroyed) = icon.cachedWindows :=
    List.filter_eq_self.mpr fun v hv => by
      simpa using hicons.windows_exist icon (List.mem_of_getElem? hicon) v hv
  unfold State.createThumbnails
  rw [hicon, Option.map_some, hclones]

theorem showWindow_spec
    (h : Lists windowApp s.icons s.switchers s.nextId s.thumbnails)
    (hicon : s.icons[s.selectedIndex]? = some icon) (hselected : s.highlighted = some s.selectedIndex)
    (hopen : ∀ id t, s.thumbnails = some id → s.switchers id = some t → t.app = icon.app)
    {w : ℕ} (hw : w < icon.cachedWindows.length) :
    ∃ t, s.showWindow w = some t ∧ Inv windowApp t ∧ Moved s s.selectedIndex (some w) t := by
  unfold State.showWindow
  obtain hthumbnails | ⟨id, hthumbnails⟩ := Option.eq_none_or_eq_some s.thumbnails
  · rw [hthumbnails] at h
    have hmem := List.mem_of_getElem? hicon
    obtain ⟨hlists, hkeeps⟩ := h.create hicons hmem
    rw [if_pos (by rw [hthumbnails]; rfl), createThumbnails_eq hicons hicon, Option.bind_some]
    obtain ⟨f, heq, hinv, hkeeps'⟩ := highlight_open (s := { s with
        switchers := Function.update s.switchers s.nextId
          (some ⟨icon.app, icon.cachedWindows, icon.cachedWindows, none, false⟩)
        nextId := s.nextId + 1
        thumbnails := some s.nextId
        currentWindow := some w }) hicons hlists hicon hselected rfl (Function.update_self ..) rfl hw rfl
    exact ⟨_, heq, hinv, rfl, rfl, rfl, rfl, hkeeps.trans hkeeps',
      fun _ _ id hid => absurd (hthumbnails.symm.trans hid) (Option.some_ne_none id).symm⟩
  · obtain ⟨t, ht⟩ := h.open_some id hthumbnails
    rw [if_neg (by rw [hthumbnails]; exact Bool.false_ne_true), Option.bind_some]
    obtain ⟨f, heq, hinv, hkeeps⟩ := highlight_open (s := { s with currentWindow := some w }) hicons h hicon
      hselected hthumbnails ht (hopen id t hthumbnails ht) hw rfl
    exact ⟨_, Option.bind_eq_some_iff.mpr ⟨id, hthumbnails, heq⟩, hinv, rfl, rfl, rfl, rfl, hkeeps,
      fun _ _ i hi => hi⟩

end

theorem startTimeout_spec (hicon : s.icons[s.selectedIndex]? = some icon) (forceAppFocus : Bool) :
    ∃ b, s.startTimeout forceAppFocus = some { s with thumbnailTimeout := b } := by
  unfold State.startTimeout
  rw [hicon, Option.map_some]
  split
  · exact ⟨true, rfl⟩
  · exact ⟨s.thumbnailTimeout, rfl⟩

theorem select_spec (hicons : Icons windowApp s.destroyed s.icons)
    (h : Lists windowApp s.icons s.switchers s.nextId s.thumbnails)
    (hin : s.thumbnails ≠ none → s.selectedIndex < s.icons.length)
    {app : ℕ} (hicon : s.icons[app]? = some icon)
    (window : Option ℕ) (hwindow : ∀ w, window = some w → w < icon.cachedWindows.length)
    (hopen : app = s.selectedIndex → window ≠ none →
      ∀ id t, s.thumbnails = some id → s.switchers id = some t → t.app = icon.app)
    (forceAppFocus : Bool) :
    ∃ t, s.select app window forceAppFocus = some t ∧ Inv windowApp t ∧ Moved s app window t := by
  obtain ⟨f, th, hleave, hlists, hkeeps, hcases⟩ := leave_spec h hin app window
  have hlt := (List.getElem?_eq_some_iff.mp hicon).1
  unfold State.select
  rw [hleave, Option.bind_some]
  unfold State.mark State.highlight
  rw [if_pos hlt, Option.bind_some]
  cases window with
  | none =>
    have hnone : th = none := by
      obtain ⟨-, hne, -⟩ | ⟨-, hnone⟩ := hcases
      · exact absurd rfl hne
      · exact hnone
    subst hnone
    dsimp only
    obtain ⟨b, heq⟩ := startTimeout_spec (s := { s with
      switchers := f
      thumbnails := none
      thumbnailTimeout := false
      thumbnailsFocused := (none : Option ℕ).isSome && !forceAppFocus
      selectedIndex := app
      currentWindow := (none : Option ℕ).filter (· ≠ 0)
      highlighted := some app }) hicon forceAppFocus
    refine ⟨_, heq, ⟨hicons, hlists, icon, ?_⟩, rfl, rfl, rfl, rfl, hkeeps, fun _ hne => absurd rfl hne⟩
    exact ⟨hicon, rfl, fun _ => ⟨rfl, rfl⟩, fun _ _ hid => (nomatch hid), fun _ hw => (nomatch hw)⟩
  | some w =>
    dsimp only
    obtain ⟨t, heq, hinv, hmoved⟩ := showWindow_spec (s := { s with
      switchers := f
      thumbnails := th
      thumbnailTimeout := false
      thumbnailsFocused := (some w).isSome && !forceAppFocus
      selectedIndex := app
      currentWindow := (some w).filter (· ≠ 0)
      highlighted := some app }) hicons hlists hicon rfl (fun id t hid ht => by
        obtain ⟨happ, hwindow, rfl, rfl⟩ | ⟨-, rfl⟩ := hcases
        · exact hopen happ hwindow id t hid ht
        · cases hid) (hwindow w rfl)
    refine ⟨t, heq, hinv, hmoved.icons, hmoved.selectedIndex, hmoved.currentWindow, hmoved.isOpen,
      hkeeps.trans hmoved.keeps, fun happ _ id hid => ?_⟩
    obtain ⟨-, -, rfl, -⟩ | ⟨hne, -⟩ := hcases
    · exact hmoved.stays rfl (Option.some_ne_none w) id hid
    · exact absurd happ (hne.resolve_right (Option.some_ne_none w))

end AppSwitcherPopup
