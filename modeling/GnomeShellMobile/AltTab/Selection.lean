import GnomeShellMobile.AltTab.AppSwitcher

/-!
# AppSwitcherPopup — the selection while apps and windows go away

The handlers of the popup for keys, scrolling, the pointer, the timeouts, apps that stop running and
windows that are destroyed. Those for what goes away run when the lists are already shorter.

* **`removeIcon_spec`** / **`windowDestroyed_spec`** — an app or a window goes away, in a step that
  meets its condition.
* **`step_spec`** — every step does.
* **`selects_of_meets`** — the headline.
-/

namespace AppSwitcherPopup

/-! ## The handlers -/

inductive Action
  | switchGroup | switchGroupBackward | switchApplications | switchApplicationsBackward | other
deriving DecidableEq

/-- The symbols that are looked at: `q` also stands for `Q`, `w` for `W` and `F4`, `enter` for those
that finish. -/
inductive Keysym
  | q | w | left | right | up | down | escape | tab | enter | other
deriving DecidableEq

inductive ScrollDirection
  | up | down | other

/-- What `_finish` asks to be activated. -/
inductive Activated
  | app (app : App) (window : Option Window)
  | window (window : Window)
deriving DecidableEq

namespace State

variable (s : State)

def fadeAndDestroy : State := { s with isOpen := false }

/-- `_finish`, without `fadeAndDestroy`. -/
def activated : Option (Option Activated) :=
  s.icons[s.selectedIndex]?.map fun appIcon =>
    match s.currentWindow with
    | none => some (.app appIcon.app appIcon.cachedWindows[0]?)
    | some window => appIcon.cachedWindows[window]?.map .window

def finish : Option State := s.activated.map fun _ => s.fadeAndDestroy

def next : Option ℕ := mod (s.selectedIndex + 1) s.icons.length

def previous : Option ℕ := mod (s.selectedIndex - 1) s.icons.length

/-- `_nextWindow`; `_select` replaces the `_currentWindow` that it sets. -/
def nextWindow : Option ℕ :=
  s.icons[s.selectedIndex]?.bind fun icon => mod (s.currentWindow.getD 0 + 1) icon.cachedWindows.length

def previousWindow : Option ℕ :=
  s.icons[s.selectedIndex]?.bind fun icon =>
    mod ((s.currentWindow.getD 1 : ℕ) - 1) icon.cachedWindows.length

def selectApp (n : Option ℕ) : Option State := n.bind fun n => s.select n none false

def selectWindow (n : Option ℕ) : Option State :=
  n.bind fun n => s.select s.selectedIndex (some n) false

/-- `_keyPressHandler`; the outer `none` is `EVENT_PROPAGATE`. Quitting the app and closing a window
are asked for only. -/
def keyPressHandler (rtl : Bool) (keysym : Keysym) : Action → Option (Option State)
  | .switchGroup =>
    some (if !s.thumbnailsFocused then s.selectWindow (some 0) else s.selectWindow s.nextWindow)
  | .switchGroupBackward => some (s.selectWindow s.previousWindow)
  | .switchApplications => some (s.selectApp s.next)
  | .switchApplicationsBackward => some (s.selectApp s.previous)
  | .other =>
    if keysym = .q then some (some s)
    else if s.thumbnailsFocused then
      match keysym with
      | .left => some (s.selectWindow (if rtl then s.nextWindow else s.previousWindow))
      | .right => some (s.selectWindow (if rtl then s.previousWindow else s.nextWindow))
      | .up => some (s.select s.selectedIndex none true)
      | .w => some (some s)
      | _ => none
    else
      match keysym with
      | .left => some (s.selectApp (if rtl then s.next else s.previous))
      | .right => some (s.selectApp (if rtl then s.previous else s.next))
      | .down => some (s.selectWindow (some 0))
      | _ => none

/-- `vfunc_key_press_event`. -/
def keyPress (rtl : Bool) (keysym : Keysym) (action : Action) : Option State :=
  let s := { s with mouseActive := false }
  match s.keyPressHandler rtl keysym action with
  | some handled => handled
  | none =>
    if keysym = .escape ∨ keysym = .tab then some s.fadeAndDestroy
    else if keysym = .enter then s.finish
    else some s

def scrollHandler : ScrollDirection → Option State
  | .up =>
    if s.thumbnailsFocused then
      if s.currentWindow = some 0 ∨ s.currentWindow = none then s.selectApp s.previous
      else s.selectWindow s.previousWindow
    else
      s.icons[s.selectedIndex]?.bind fun icon =>
        let nwindows := icon.cachedWindows.length
        if nwindows > 1 then s.selectWindow (some (nwindows - 1)) else s.selectApp s.previous
  | .down =>
    s.icons[s.selectedIndex]?.bind fun icon =>
      let nwindows := icon.cachedWindows.length
      if s.thumbnailsFocused then
        -- `_currentWindow === nwindows - 1`
        if s.currentWindow.elim 0 (· + 1) = nwindows then s.selectApp s.next
        else s.selectWindow s.nextWindow
      else if nwindows > 1 then s.selectWindow (some 0)
      else s.selectApp s.next
  | .other => some s

def itemEntered (n : ℕ) : Option State :=
  if !s.mouseActive then some s else s.select n none false

/-- `_onItemMotion` of the `AppSwitcher`. -/
def iconMotion (index : ℕ) : Option State :=
  if s.highlighted = some index ∨ s.delayedHighlighted = some index then some s
  else
    let s := if s.mouseTimeOut.isSome then { s with delayedHighlighted := none, mouseTimeOut := none } else s
    if s.thumbnailsVisible then some { s with delayedHighlighted := some index, mouseTimeOut := some index }
    else s.itemEntered index

/-- The timeout of `_onItemMotion`, with the icon that the pointer is on. -/
def hoverTimeout (picked : Option ℕ) : Option State :=
  s.mouseTimeOut.bind fun index =>
    -- `_enterItem`
    if index < s.icons.length then
      (if picked = some index then s.itemEntered index else some s).map fun s =>
        { s with delayedHighlighted := none, mouseTimeOut := none }
    else none

/-- `_onItemMotion` of a `ThumbnailSwitcher`, and `_windowEntered`. -/
def thumbnailMotion (id n : ℕ) : Option State :=
  (s.switchers id).bind fun t =>
    if t.highlighted = some n then some s
    else if !s.mouseActive then some s
    else s.select s.selectedIndex (some n) false

def timeoutPopupThumbnails : Option State :=
  (if s.thumbnails.isNone then s.createThumbnails else some s).map fun s =>
    { s with thumbnailTimeout := false, thumbnailsFocused := false }

def itemRemovedHandler (n : ℕ) : Option State :=
  if s.icons.length > 0 then
    if n < s.selectedIndex then s.select (s.selectedIndex - 1) none false
    else if n = s.selectedIndex then s.select (min n (s.icons.length - 1)) none false
    else some s
  else some s.fadeAndDestroy

def removeIcon (app : App) : Option State :=
  match s.icons.findIdx? fun icon => icon.app == app with
  | none => some s
  | some index => itemRemovedHandler { s with icons := s.icons.eraseIdx index } index

def windowRemoved (n : ℕ) : Option State :=
  match s.icons[s.selectedIndex]? with
  | none => some s
  | some appIcon =>
    if appIcon.cachedWindows.length > 0 then
      s.select s.selectedIndex (some (min n (appIcon.cachedWindows.length - 1))) false
    else some s

def spliceWindows (icons : List AppIcon) (app : App) (index : ℕ) : List AppIcon :=
  icons.map fun icon =>
    if icon.app = app then { icon with cachedWindows := icon.cachedWindows.eraseIdx index } else icon

variable (w : Window)

def removeThumbnail (id : ℕ) : Option State :=
  (s.switchers id).elim (some s) fun t =>
    let index := t.clones.idxOf w
    if index < t.clones.length then
      if index < t.items.length then
        (windowRemoved { s with
          icons := spliceWindows s.icons t.app index
          switchers := Function.update s.switchers id (some { t with
            clones := t.clones.eraseIdx index
            items := t.items.eraseIdx index }) } index).bind fun s =>
          (s.switchers id).elim (some s) fun t =>
            if t.clones.length > 0 then (mod index t.clones.length).bind (s.highlightThumbnail id ·)
            else some (s.destroyList id)
      else none
    else some s

def holders : List ℕ :=
  (List.range s.nextId).filter fun id => (s.switchers id).any fun t => w ∈ t.clones

def windowDestroyed : Option State :=
  (s.holders w).foldlM (fun s id => s.removeThumbnail w id) { s with destroyed := w :: s.destroyed }

end State

/-! ## The steps -/

inductive Event
  | keyPress (rtl : Bool) (keysym : Keysym) (action : Action)
  | scroll (direction : ScrollDirection)
  | iconMotion (n : ℕ)
  | thumbnailMotion (id n : ℕ)
  | mouseTimedOut
  | hoverTimeout (picked : Option ℕ)
  | thumbnailTimeout
  | fadedIn
  | fadedOut (id : ℕ)
  | appStops (app : App)
  | windowDestroyed (w : Window)
  | finish

open State

variable (s : State)

/-- What happens in an open popup; `none` is a `TypeError`. -/
def step : Event → Option State
  | .keyPress rtl keysym action => s.keyPress rtl keysym action
  | .scroll direction => scrollHandler { s with mouseActive := false } direction
  | .iconMotion n => s.iconMotion n
  | .thumbnailMotion id n => s.thumbnailMotion id n
  | .mouseTimedOut => some { s with mouseActive := true }
  | .hoverTimeout picked => s.hoverTimeout picked
  | .thumbnailTimeout => s.timeoutPopupThumbnails
  | .fadedIn => some { s with thumbnailsVisible := true }
  | .fadedOut id => some { s.destroyList id with thumbnailsVisible := false }
  | .appStops app => s.removeIcon app
  | .windowDestroyed w => s.windowDestroyed w
  | .finish => s.finish

def Enabled (e : Event) : Prop :=
  s.isOpen = true ∧
    match e with
    | .iconMotion n => n < s.icons.length
    | .thumbnailMotion id n => ∃ t, s.switchers id = some t ∧ n < t.items.length
    | .hoverTimeout picked => s.mouseTimeOut ≠ none ∧ ∀ n, picked = some n → n < s.icons.length
    | .thumbnailTimeout => s.thumbnailTimeout = true
    | .fadedOut id => ∃ t, s.switchers id = some t ∧ t.fading = true
    | .windowDestroyed w => w ∉ s.destroyed
    | _ => True

/-- What the popup is opened with: the apps that are running, and the windows of `getWindows`. -/
structure Listing where
  apps : List App
  allWindows : List Window
  windowApp : Window → App
  apps_nodup : apps.Nodup
  windows_nodup : allWindows.Nodup

variable (l : Listing)

def Listing.icons : List AppIcon :=
  (l.apps.map fun app => ⟨app, l.allWindows.filter fun w => l.windowApp w = app⟩).filter
    fun appIcon => appIcon.cachedWindows.length > 0

def Listing.new : State where
  icons := l.icons
  selectedIndex := 0
  currentWindow := none
  thumbnails := none
  thumbnailsFocused := false
  thumbnailTimeout := false
  thumbnailsVisible := false
  mouseActive := false
  highlighted := none
  delayedHighlighted := none
  mouseTimeOut := none
  switchers := fun _ => none
  nextId := 0
  destroyed := []
  isOpen := true

inductive Binding
  | switchGroup | switchGroupBackward | switchApplicationsBackward | other

def initialSelection (backward : Bool) : Binding → Option State
  | .switchGroup =>
    s.icons[0]?.bind fun icon =>
      if backward then s.select 0 (some (icon.cachedWindows.length - 1)) false
      else if icon.cachedWindows.length > 1 then s.select 0 (some 1) false
      else s.select 0 (some 0) false
  | .switchGroupBackward =>
    s.icons[0]?.bind fun icon => s.select 0 (some (icon.cachedWindows.length - 1)) false
  | .switchApplicationsBackward => s.select (s.icons.length - 1) none false
  | .other =>
    if s.icons.length = 1 then s.select 0 none false
    else if backward then s.select (s.icons.length - 1) none false
    else s.select 1 none false

/-- `show`; without icons the popup does not open. -/
def Listing.show (backward : Bool) (binding : Binding) : Option State :=
  if l.icons.length = 0 then some l.new.fadeAndDestroy else initialSelection l.new backward binding

/-! ## What is meant to hold -/

def State.selectedApp : Option App := s.icons[s.selectedIndex]?.map AppIcon.app

def State.highlightedApp : Option App :=
  s.highlighted.bind fun n => s.icons[n]?.map AppIcon.app

def State.highlightedWindow : Option Window :=
  s.thumbnails.bind fun id => (s.switchers id).bind fun t => t.highlighted.bind fun n => t.items[n]?

/-- The indices are valid, the thumbnails shown are those of the selected app, and what would be
activated is what is highlighted: the app, by a window that exists, or a window that does. -/
structure Right : Prop where
  selectedIndex : s.selectedIndex < s.icons.length
  currentWindow : ∀ n, s.currentWindow = some n →
    ∃ icon, s.icons[s.selectedIndex]? = some icon ∧ n < icon.cachedWindows.length
  thumbnails : ∀ id t, s.switchers id = some t → t.fading = false → s.selectedApp = some t.app
  activated : (∃ app w, s.currentWindow = none ∧ s.highlightedApp = some app ∧ w ∉ s.destroyed ∧
      s.activated = some (some (.app app (some w)))) ∨
    ∃ w, s.highlightedWindow = some w ∧ w ∉ s.destroyed ∧ s.activated = some (some (.window w))

def KeepsSelected (e : Event) (t : State) : Prop :=
  ∀ app, e = .appStops app → s.selectedApp ≠ some app → t.selectedApp = s.selectedApp

/-- From the first selection on, in every run of events that meet a condition, in every state reached
while the popup is open: the selection is right, and no event that meets the condition indexes outside
a list. -/
def Selects (ok : State → Event → Prop) (l : Listing) (backward : Bool) (binding : Binding) : Prop :=
  ∃ start, l.show backward binding = some start ∧
    ∀ s, Runs.Reach step ok start s → s.isOpen = true →
      Right s ∧ ∀ e, ok s e → ∃ t, step s e = some t ∧ KeepsSelected s e t

/-- A window goes away that no listed app has, or that exactly one list shows, which does not show it
alone and, if it is open, not at its end, or shows one other. -/
def WindowFits (w : Window) : Prop :=
  (s.holders w = [] ∧ ∀ icon ∈ s.icons, w ∉ icon.cachedWindows) ∨
    ∃ id t, s.holders w = [id] ∧ s.switchers id = some t ∧ 1 < t.clones.length ∧
      (t.fading = true ∨ t.clones.idxOf w + 1 < t.clones.length ∨ t.clones.length = 2)

/-- No step goes wrong: the icon of a hover timeout is still there, a thumbnail entered has the index
of a window of the selected app, a list has faded out before another is open, an app that goes away
while thumbnails are open is behind the selected one or that is not the last, and a window fits. -/
def Meets (e : Event) : Prop :=
  Enabled s e ∧
    match e with
    | .thumbnailMotion id n => s.mouseActive = true → (s.switchers id).bind (·.highlighted) ≠ some n →
        ∀ icon, s.icons[s.selectedIndex]? = some icon → n < icon.cachedWindows.length
    | .hoverTimeout _ => ∀ index, s.mouseTimeOut = some index → index < s.icons.length
    | .fadedOut _ => s.thumbnails = none
    | .appStops app => ∀ n, s.icons.findIdx? (·.app == app) = some n → s.thumbnails ≠ none →
        1 < s.icons.length → n ≤ s.selectedIndex → s.selectedIndex + 1 < s.icons.length
    | .windowDestroyed w => WindowFits s w
    | _ => True

/-! ## Selecting between the events -/

variable {windowApp : Window → App} {s t : State}

theorem mod_spec (a : ℤ) {b : ℕ} (hb : 0 < b) : ∃ n < b, mod a b = some n := by
  have hnonneg := Int.emod_nonneg (a + b) (show (b : ℤ) ≠ 0 by omega)
  have hlt := Int.emod_lt_of_pos (a + b) (show (0 : ℤ) < b by omega)
  refine ⟨((a + b) % b).toNat, by omega, ?_⟩
  unfold mod
  rw [if_neg (by omega)]

theorem mod_natCast (n : ℕ) {b : ℕ} (hb : 0 < b) : mod n b = some (n % b) := by
  unfold mod
  rw [if_neg (by omega), Int.add_emod_right]
  rfl

theorem Inv.touch (h : Inv windowApp s) (timeout visible active : Bool) (delayed timeOut : Option ℕ) :
    Inv windowApp { s with
      thumbnailTimeout := timeout
      thumbnailsVisible := visible
      mouseActive := active
      delayedHighlighted := delayed
      mouseTimeOut := timeOut } := by
  obtain ⟨icon, hicon⟩ := h.selected
  exact ⟨h.icons, h.lists, icon, hicon.get, hicon.highlighted, hicon.closed, hicon.opened, hicon.current⟩

theorem Selected.lt {icon : AppIcon} (h : Selected s icon) : s.selectedIndex < s.icons.length :=
  (List.getElem?_eq_some_iff.mp h.get).1

theorem Inv.select (h : Inv windowApp s) {app : ℕ} {icon : AppIcon} (hicon : s.icons[app]? = some icon)
    (window : Option ℕ) (hwindow : ∀ w, window = some w → w < icon.cachedWindows.length)
    (forceAppFocus : Bool) :
    ∃ t, s.select app window forceAppFocus = some t ∧ Inv windowApp t ∧ Moved s app window t := by
  obtain ⟨selected, hselected⟩ := h.selected
  refine select_spec h.icons h.lists (fun _ => hselected.lt) hicon window hwindow
    (fun happ _ id t hid ht => ?_) _
  have hget := hselected.get
  rw [← happ, hicon] at hget
  cases hget
  exact (hselected.opened id t hid ht).1

def Sound (windowApp : Window → App) (o : Option State) : Prop :=
  ∃ t, o = some t ∧ (t.isOpen = true → Inv windowApp t)

theorem Inv.selectIcon (h : Inv windowApp s) {n : ℕ} (hn : n < s.icons.length) (forceAppFocus : Bool) :
    Sound windowApp (s.select n none forceAppFocus) := by
  obtain ⟨t, heq, ht, -⟩ := h.select (List.getElem?_eq_getElem hn) none
    (fun _ hw => (nomatch hw)) forceAppFocus
  exact ⟨t, heq, fun _ => ht⟩

theorem Inv.selectApp (h : Inv windowApp s) {n : Option ℕ} (hn : ∃ k < s.icons.length, n = some k) :
    Sound windowApp (s.selectApp n) := by
  obtain ⟨k, hk, rfl⟩ := hn
  exact h.selectIcon hk false

theorem Inv.selectWindow (h : Inv windowApp s) {icon : AppIcon} (hicon : s.icons[s.selectedIndex]? = some icon)
    {n : Option ℕ} (hn : ∃ k < icon.cachedWindows.length, n = some k) :
    Sound windowApp (s.selectWindow n) := by
  obtain ⟨k, hk, rfl⟩ := hn
  obtain ⟨t, heq, ht, -⟩ := h.select hicon (some k) (fun w hw => by cases hw; exact hk) false
  exact ⟨t, heq, fun _ => ht⟩

theorem next_spec (hlt : s.selectedIndex < s.icons.length) : ∃ k < s.icons.length, s.next = some k :=
  mod_spec _ (by omega)

theorem previous_spec (hlt : s.selectedIndex < s.icons.length) : ∃ k < s.icons.length, s.previous = some k :=
  mod_spec _ (by omega)

theorem nextWindow_spec {icon : AppIcon} (hicon : s.icons[s.selectedIndex]? = some icon)
    (hpos : 0 < icon.cachedWindows.length) : ∃ k < icon.cachedWindows.length, s.nextWindow = some k := by
  unfold State.nextWindow
  rw [hicon]
  exact mod_spec _ hpos

theorem previousWindow_spec {icon : AppIcon} (hicon : s.icons[s.selectedIndex]? = some icon)
    (hpos : 0 < icon.cachedWindows.length) : ∃ k < icon.cachedWindows.length, s.previousWindow = some k := by
  unfold State.previousWindow
  rw [hicon]
  exact mod_spec _ hpos

theorem Inv.windows_pos (h : Inv windowApp s) {icon : AppIcon} {n : ℕ} (hicon : s.icons[n]? = some icon) :
    0 < icon.cachedWindows.length :=
  List.length_pos_iff.mpr (h.icons.windows_ne icon (List.mem_of_getElem? hicon))

/-! ## Keys, scrolling, the pointer and the timeouts -/

theorem keyPressHandler_spec (h : Inv windowApp s) {rtl : Bool} {keysym : Keysym} {action : Action}
    {o : Option State} (ho : s.keyPressHandler rtl keysym action = some o) : Sound windowApp o := by
  obtain ⟨icon, hicon⟩ := h.selected
  have hpos := h.windows_pos hicon.get
  have hnext := h.selectApp (next_spec hicon.lt)
  have hprevious := h.selectApp (previous_spec hicon.lt)
  have hnextWindow := h.selectWindow hicon.get (nextWindow_spec hicon.get hpos)
  have hpreviousWindow := h.selectWindow hicon.get (previousWindow_spec hicon.get hpos)
  have hfirst := h.selectWindow hicon.get ⟨0, hpos, rfl⟩
  have hsame : Sound windowApp (some s) := ⟨s, rfl, fun _ => h⟩
  cases action with
  | switchGroup =>
    cases ho
    split
    · exact hfirst
    · exact hnextWindow
  | switchGroupBackward => cases ho; exact hpreviousWindow
  | switchApplications => cases ho; exact hnext
  | switchApplicationsBackward => cases ho; exact hprevious
  | other =>
    unfold State.keyPressHandler at ho
    dsimp only at ho
    split at ho
    · cases ho
      exact hsame
    · split at ho
      · cases keysym with
        | left => cases ho; cases rtl; exacts [hpreviousWindow, hnextWindow]
        | right => cases ho; cases rtl; exacts [hnextWindow, hpreviousWindow]
        | up => cases ho; exact h.selectIcon hicon.lt true
        | w => cases ho; exact hsame
        | _ => cases ho
      · cases keysym with
        | left => cases ho; cases rtl; exacts [hprevious, hnext]
        | right => cases ho; cases rtl; exacts [hnext, hprevious]
        | down => cases ho; exact hfirst
        | _ => cases ho

theorem fadeAndDestroy_spec (windowApp : Window → App) (s : State) : Sound windowApp (some s.fadeAndDestroy) :=
  ⟨_, rfl, fun hopen => nomatch hopen⟩

section

variable (h : Inv windowApp s)
include h

theorem finish_spec : Sound windowApp s.finish := by
  obtain ⟨icon, hicon⟩ := h.selected
  refine ⟨s.fadeAndDestroy, ?_, fun hopen => nomatch hopen⟩
  unfold State.finish State.activated
  rw [hicon.get]
  rfl

theorem keyPress_spec (rtl : Bool) (keysym : Keysym) (action : Action) :
    Sound windowApp (s.keyPress rtl keysym action) := by
  have hmouse : Inv windowApp { s with mouseActive := false } := h.touch _ _ _ _ _
  unfold State.keyPress
  dsimp only
  split
  · next o ho => exact keyPressHandler_spec hmouse ho
  · split
    · exact fadeAndDestroy_spec _ _
    · split
      · exact finish_spec hmouse
      · exact ⟨_, rfl, fun _ => hmouse⟩

theorem scrollHandler_spec (direction : ScrollDirection) :
    Sound windowApp (s.scrollHandler direction) := by
  obtain ⟨icon, hicon⟩ := h.selected
  have hpos := h.windows_pos hicon.get
  have hnext := h.selectApp (next_spec hicon.lt)
  have hprevious := h.selectApp (previous_spec hicon.lt)
  unfold State.scrollHandler
  cases direction with
  | up =>
    dsimp only
    rw [hicon.get, Option.bind_some]
    split
    · split
      · exact hprevious
      · exact h.selectWindow hicon.get (previousWindow_spec hicon.get hpos)
    · split
      · exact h.selectWindow hicon.get ⟨_, Nat.sub_one_lt_of_lt hpos, rfl⟩
      · exact hprevious
  | down =>
    dsimp only
    rw [hicon.get, Option.bind_some]
    split
    · split
      · exact hnext
      · exact h.selectWindow hicon.get (nextWindow_spec hicon.get hpos)
    · split
      · exact h.selectWindow hicon.get ⟨0, hpos, rfl⟩
      · exact hnext
  | other => exact ⟨s, rfl, fun _ => h⟩

theorem itemEntered_spec {n : ℕ} (hn : n < s.icons.length) :
    Sound windowApp (s.itemEntered n) := by
  unfold State.itemEntered
  split
  · exact ⟨s, rfl, fun _ => h⟩
  · exact h.selectIcon hn false

theorem iconMotion_spec {n : ℕ} (hn : n < s.icons.length) :
    Sound windowApp (s.iconMotion n) := by
  have hmotion : ∀ u, Inv windowApp u → u.icons = s.icons → Sound windowApp
      (if u.thumbnailsVisible then some { u with delayedHighlighted := some n, mouseTimeOut := some n }
      else u.itemEntered n) := by
    intro u hu hicons
    split
    · exact ⟨_, rfl, fun _ => hu.touch _ _ _ _ _⟩
    · exact itemEntered_spec hu (hicons ▸ hn)
  unfold State.iconMotion
  split
  · exact ⟨s, rfl, fun _ => h⟩
  · refine hmotion (if s.mouseTimeOut.isSome then _ else s) ?_ ?_
    · split
      · exact h.touch _ _ _ _ _
      · exact h
    · split <;> rfl

theorem hoverTimeout_spec {picked : Option ℕ} (hrunning : s.mouseTimeOut ≠ none)
    (hmeets : ∀ index, s.mouseTimeOut = some index → index < s.icons.length) :
    Sound windowApp (s.hoverTimeout picked) := by
  obtain ⟨index, hindex⟩ := Option.ne_none_iff_exists'.mp hrunning
  have hlt := hmeets index hindex
  unfold State.hoverTimeout
  rw [hindex, Option.bind_some, if_pos hlt]
  split
  · obtain ⟨t, heq, ht⟩ := itemEntered_spec h hlt
    rw [heq, Option.map_some]
    exact ⟨_, rfl, fun hopen => (ht hopen).touch _ _ _ _ _⟩
  · exact ⟨_, rfl, fun _ => h.touch _ _ _ _ _⟩

theorem thumbnailMotion_spec {id n : ℕ} {t : ThumbnailSwitcher}
    (ht : s.switchers id = some t)
    (hmeets : s.mouseActive = true → (s.switchers id).bind (·.highlighted) ≠ some n →
      ∀ icon, s.icons[s.selectedIndex]? = some icon → n < icon.cachedWindows.length) :
    Sound windowApp (s.thumbnailMotion id n) := by
  obtain ⟨icon, hicon⟩ := h.selected
  rw [ht, Option.bind_some] at hmeets
  unfold State.thumbnailMotion
  rw [ht, Option.bind_some]
  split
  · exact ⟨s, rfl, fun _ => h⟩
  · next hother =>
    split
    · exact ⟨s, rfl, fun _ => h⟩
    · next hactive =>
      have hn := hmeets (by simpa using hactive) hother icon hicon.get
      exact h.selectWindow hicon.get ⟨n, hn, rfl⟩

theorem timeoutPopupThumbnails_spec : Sound windowApp s.timeoutPopupThumbnails := by
  obtain ⟨icon, hicon⟩ := h.selected
  have hmem := List.mem_of_getElem? hicon.get
  unfold State.timeoutPopupThumbnails
  obtain hnone | ⟨id, hid⟩ := Option.eq_none_or_eq_some s.thumbnails
  · have hlists := h.lists
    rw [hnone] at hlists
    rw [if_pos (by rw [hnone]; rfl), createThumbnails_eq h.icons hicon.get, Option.map_some]
    refine ⟨_, rfl, fun _ => ⟨h.icons, (hlists.create h.icons hmem).1, icon, hicon.get, hicon.highlighted,
      fun hclosed => (nomatch hclosed), fun id t hid ht => ?_, hicon.current⟩⟩
    cases hid
    dsimp only at ht
    rw [Function.update_self] at ht
    cases ht
    exact ⟨rfl, (hicon.closed hnone).1.symm⟩
  · rw [if_neg (by rw [hid]; exact Bool.false_ne_true), Option.map_some]
    refine ⟨_, rfl, fun _ => ⟨h.icons, h.lists, icon, hicon.get, hicon.highlighted, fun hclosed => ?_,
      hicon.opened, hicon.current⟩⟩
    exact absurd (hid.symm.trans hclosed) (Option.some_ne_none id)

theorem destroyList_spec (hclosed : s.thumbnails = none) (id : ℕ) :
    Inv windowApp (s.destroyList id) := by
  obtain ⟨icon, hicon⟩ := h.selected
  obtain ⟨hcurrent, -⟩ := hicon.closed hclosed
  have hlists := h.lists
  rw [hclosed] at hlists
  have hold : ∀ i u, Function.update s.switchers id none i = some u → s.switchers i = some u := by
    intro i u hu
    by_cases hi : i = id
    · rw [hi, Function.update_self] at hu
      cases hu
    · rw [Function.update_of_ne hi] at hu
      exact hu
  refine ⟨h.icons, ⟨fun i hi => ?_, fun i u hu => hlists.clones i u (hold i u hu),
    fun i u hu => hlists.open_iff i u (hold i u hu), fun i hi => (nomatch hi)⟩, icon, hicon.get,
    hicon.highlighted, fun _ => ⟨hcurrent, rfl⟩, fun i u hi => (nomatch hi), hicon.current⟩
  show Function.update s.switchers id none i = none
  by_cases hid : i = id
  · rw [hid, Function.update_self]
  · rw [Function.update_of_ne hid]
    exact hlists.fresh i hi

end

/-! ## Apps that stop running -/

theorem Icons.subset {destroyed : List Window} {icons icons' : List AppIcon}
    (h : Icons windowApp destroyed icons) (hsub : icons'.Sublist icons) : Icons windowApp destroyed icons' :=
  ⟨h.apps_nodup.sublist (hsub.map _), fun icon hicon => h.windows_ne icon (hsub.subset hicon),
    fun icon hicon => h.windows_nodup icon (hsub.subset hicon),
    fun icon hicon => h.windows_app icon (hsub.subset hicon),
    fun icon hicon => h.windows_exist icon (hsub.subset hicon)⟩

theorem Lists.subset {icons icons' : List AppIcon} {switchers : ℕ → Option ThumbnailSwitcher} {nextId : ℕ}
    {thumbnails : Option ℕ} (h : Lists windowApp icons switchers nextId thumbnails)
    (hsub : icons'.Sublist icons) : Lists windowApp icons' switchers nextId thumbnails := by
  refine ⟨h.fresh, fun id t ht => ?_, h.open_iff, h.open_some⟩
  have hclones := h.clones id t ht
  exact ⟨hclones.items_eq, hclones.nodup, hclones.windows_app,
    fun icon hicon => hclones.windows_eq icon (hsub.subset hicon)⟩

theorem removeIcon_spec (h : Inv windowApp s) {app : App}
    (hmeets : ∀ n, s.icons.findIdx? (·.app == app) = some n → s.thumbnails ≠ none →
      1 < s.icons.length → n ≤ s.selectedIndex → s.selectedIndex + 1 < s.icons.length) :
    ∃ t, s.removeIcon app = some t ∧ (t.isOpen = true → Inv windowApp t) ∧
      (s.selectedApp ≠ some app → t.selectedApp = s.selectedApp) := by
  obtain ⟨icon, hicon⟩ := h.selected
  have hselected : s.selectedApp = some icon.app := by
    unfold State.selectedApp
    rw [hicon.get, Option.map_some]
  unfold State.removeIcon
  cases hindex : s.icons.findIdx? fun icon => icon.app == app with
  | none => exact ⟨s, rfl, fun _ => h, fun _ => rfl⟩
  | some index =>
    obtain ⟨hlt, happ, -⟩ := List.findIdx?_eq_some_iff_getElem.mp hindex
    have happ : s.icons[index].app = app := by simpa using happ
    have hlength := List.length_eraseIdx_of_lt hlt
    have hsub := List.eraseIdx_sublist s.icons index
    have hselectedlt := hicon.lt
    have hthumbnails : 0 < (s.icons.eraseIdx index).length → index ≤ s.selectedIndex →
        s.thumbnails ≠ none → s.selectedIndex < (s.icons.eraseIdx index).length := by
      intro hpos hle hne
      have := hmeets index hindex hne (by omega) hle
      omega
    have hself : index = s.selectedIndex → s.selectedApp = some app := by
      intro heq
      rw [hselected, ← happ]
      have hget := hicon.get
      rw [← heq, List.getElem?_eq_getElem hlt] at hget
      rw [← Option.some.inj hget]
    dsimp only
    unfold State.itemRemovedHandler
    dsimp only
    split
    · next hpos =>
      split
      · next hbefore =>
        -- the icons from the index on have moved by one
        have hget : (s.icons.eraseIdx index)[s.selectedIndex - 1]? = some icon := by
          rw [List.getElem?_eraseIdx, if_neg (by omega), ← hicon.get]
          congr 1
          omega
        obtain ⟨t, heq, ht, hmoved⟩ := select_spec (s := { s with icons := s.icons.eraseIdx index })
          (h.icons.subset hsub) (h.lists.subset hsub) (hthumbnails hpos (by omega)) hget none
          (fun _ hw => (nomatch hw)) (fun _ hne => absurd rfl hne) false
        refine ⟨t, heq, fun _ => ht, fun _ => ?_⟩
        unfold State.selectedApp
        rw [hmoved.icons, hmoved.selectedIndex, hget, hicon.get]
      · split
        · next hsame =>
          obtain ⟨t, heq, ht, -⟩ := select_spec (s := { s with icons := s.icons.eraseIdx index })
            (h.icons.subset hsub) (h.lists.subset hsub) (hthumbnails hpos (by omega))
            (List.getElem?_eq_getElem (show min index ((s.icons.eraseIdx index).length - 1) <
              (s.icons.eraseIdx index).length by omega))
            none (fun _ hw => (nomatch hw)) (fun _ hne => absurd rfl hne) false
          exact ⟨t, heq, fun _ => ht, fun hne => absurd (hself hsame) hne⟩
        · have hget : (s.icons.eraseIdx index)[s.selectedIndex]? = some icon := by
            rw [List.getElem?_eraseIdx, if_pos (by omega), hicon.get]
          refine ⟨_, rfl, fun _ => ⟨h.icons.subset hsub, h.lists.subset hsub, icon, hget, hicon.highlighted,
            hicon.closed, hicon.opened, hicon.current⟩, fun _ => ?_⟩
          rw [hselected]
          unfold State.selectedApp
          rw [hget, Option.map_some]
    · next hempty =>
      exact ⟨_, rfl, fun hopen => (nomatch hopen), fun hne => absurd (hself (by omega)) hne⟩

/-! ## Windows that are destroyed -/

def ThumbnailSwitcher.without (t : ThumbnailSwitcher) (w : Window) : ThumbnailSwitcher :=
  { t with
    clones := t.clones.eraseIdx (t.clones.idxOf w)
    items := t.items.eraseIdx (t.clones.idxOf w) }

theorem clones_without (t : ThumbnailSwitcher) (w : Window) : (t.without w).clones = t.clones.erase w :=
  List.eraseIdx_idxOf_eq_erase w t.clones

theorem exists_of_mem_spliceWindows {icons : List AppIcon} {app : App} {index : ℕ} {icon : AppIcon}
    (hicon : icon ∈ spliceWindows icons app index) : ∃ old ∈ icons, old.app = icon.app := by
  obtain ⟨old, hold, rfl⟩ := List.mem_map.mp hicon
  refine ⟨old, hold, ?_⟩
  split <;> rfl

theorem mem_spliceWindows {icons : List AppIcon} {t : ThumbnailSwitcher} (hclones : Clones windowApp icons t)
    (w : Window) {icon : AppIcon} (hicon : icon ∈ spliceWindows icons t.app (t.clones.idxOf w)) :
    icon.app = t.app ∧ icon.cachedWindows = t.clones.erase w ∨ icon.app ≠ t.app ∧ icon ∈ icons := by
  obtain ⟨old, hold, rfl⟩ := List.mem_map.mp hicon
  split
  · next heq =>
    refine .inl ⟨heq, ?_⟩
    dsimp only
    rw [← hclones.windows_eq old hold heq]
    exact clones_without t w
  · next hne => exact .inr ⟨hne, hold⟩

theorem Icons.splice {destroyed : List Window} {icons : List AppIcon} (h : Icons windowApp destroyed icons)
    {t : ThumbnailSwitcher} (hclones : Clones windowApp icons t) {w : Window} (hw : w ∈ t.clones)
    (hlength : 1 < t.clones.length) :
    Icons windowApp (w :: destroyed) (spliceWindows icons t.app (t.clones.idxOf w)) := by
  have hold : ∀ icon ∈ icons, icon.app = t.app → ∀ v ∈ t.clones, v ∉ destroyed := by
    intro icon hicon heq v hv
    rw [hclones.windows_eq icon hicon heq] at hv
    exact h.windows_exist icon hicon v hv
  refine ⟨?_, fun icon hicon => ?_, fun icon hicon => ?_, fun icon hicon v hv => ?_, fun icon hicon v hv => ?_⟩
  · have happs : (spliceWindows icons t.app (t.clones.idxOf w)).map AppIcon.app = icons.map AppIcon.app := by
      unfold spliceWindows
      rw [List.map_map]
      apply List.map_congr_left
      intro icon _
      dsimp only [Function.comp_apply]
      split <;> rfl
    rw [happs]
    exact h.apps_nodup
  · obtain ⟨-, heq⟩ | ⟨-, hmem⟩ := mem_spliceWindows hclones w hicon
    · rw [heq, ← List.length_pos_iff, List.length_erase_of_mem hw]
      omega
    · exact h.windows_ne icon hmem
  · obtain ⟨-, heq⟩ | ⟨-, hmem⟩ := mem_spliceWindows hclones w hicon
    · rw [heq]
      exact hclones.nodup.erase w
    · exact h.windows_nodup icon hmem
  · obtain ⟨happ, heq⟩ | ⟨-, hmem⟩ := mem_spliceWindows hclones w hicon
    · rw [heq] at hv
      rw [happ]
      exact hclones.windows_app v (List.mem_of_mem_erase hv)
    · exact h.windows_app icon hmem v hv
  · obtain ⟨happ, heq⟩ | ⟨hne, hmem⟩ := mem_spliceWindows hclones w hicon
    · rw [heq, hclones.nodup.mem_erase_iff] at hv
      obtain ⟨old, hmem, hsame⟩ := exists_of_mem_spliceWindows hicon
      rw [List.mem_cons, not_or]
      exact ⟨hv.1, hold old hmem (hsame.trans happ) v hv.2⟩
    · rw [List.mem_cons, not_or]
      refine ⟨fun heq => hne ?_, h.windows_exist icon hmem v hv⟩
      rw [← h.windows_app icon hmem v hv, heq]
      exact hclones.windows_app w hw

theorem Lists.splice {icons : List AppIcon} {switchers : ℕ → Option ThumbnailSwitcher} {nextId : ℕ}
    {thumbnails : Option ℕ} (h : Lists windowApp icons switchers nextId thumbnails) {id : ℕ}
    {t : ThumbnailSwitcher} (ht : switchers id = some t) {w : Window} (hw : w ∈ t.clones)
    (honly : ∀ i u, switchers i = some u → w ∈ u.clones → i = id) :
    Lists windowApp (spliceWindows icons t.app (t.clones.idxOf w))
      (Function.update switchers id (some (t.without w))) nextId thumbnails := by
  have hclones := h.clones id t ht
  have hsub : (t.without w).clones.Sublist t.clones := List.eraseIdx_sublist _ _
  refine h.update ht rfl ⟨?_, hclones.nodup.sublist hsub,
    fun v hv => hclones.windows_app v (hsub.subset hv), fun icon hicon heq => ?_⟩ fun i u hi hu => ?_
  · unfold ThumbnailSwitcher.without
    dsimp only
    rw [hclones.items_eq]
  · rw [clones_without]
    obtain ⟨-, hsame⟩ | ⟨hne, -⟩ := mem_spliceWindows hclones w hicon
    · exact hsame.symm
    · exact absurd heq hne
  · have hother := h.clones i u hu
    refine ⟨hother.items_eq, hother.nodup, hother.windows_app, fun icon hicon heq => ?_⟩
    obtain ⟨happ, -⟩ | ⟨-, hmem⟩ := mem_spliceWindows hclones w hicon
    · -- a list of the same app would show the window too
      obtain ⟨old, hold, hsame⟩ := exists_of_mem_spliceWindows hicon
      exfalso
      apply hi
      apply honly i u hu
      rw [hother.windows_eq old hold (hsame.trans heq), ← hclones.windows_eq old hold (hsame.trans happ)]
      exact hw
    · exact hother.windows_eq icon hmem heq

theorem mem_holders (h : Inv windowApp s) (w : Window) (id : ℕ) :
    id ∈ s.holders w ↔ ∃ t, s.switchers id = some t ∧ w ∈ t.clones := by
  unfold State.holders
  rw [List.mem_filter, List.mem_range]
  constructor
  · rintro ⟨-, hany⟩
    obtain ⟨t, ht, hw⟩ := Option.any_eq_true .. |>.mp hany
    exact ⟨t, ht, by simpa using hw⟩
  · rintro ⟨t, ht, hw⟩
    refine ⟨?_, ?_⟩
    · by_contra hge
      rw [h.lists.fresh id (Nat.le_of_not_lt hge)] at ht
      cases ht
    · rw [ht]
      simpa using hw

theorem Inv.highlightThumbnail (h : Inv windowApp s) {id : ℕ} {t : ThumbnailSwitcher}
    (ht : s.switchers id = some t) {n : ℕ} (hn : n < t.clones.length)
    (hsame : t.fading = false → s.currentWindow = some n) : Sound windowApp (s.highlightThumbnail id n) := by
  obtain ⟨icon, hicon⟩ := h.selected
  have hclones := h.lists.clones id t ht
  refine ⟨{ s with switchers := Function.update s.switchers id (some { t with highlighted := some n }) }, ?_,
    fun _ => ⟨h.icons, h.lists.highlight ht (some n), icon, hicon.get, hicon.highlighted, hicon.closed,
      fun i u hi hu => ?_, hicon.current⟩⟩
  · unfold State.highlightThumbnail
    rw [ht, Option.bind_some, if_pos (by rw [hclones.items_eq]; exact hn)]
  · dsimp only at hu
    by_cases heq : i = id
    · rw [heq, Function.update_self] at hu
      cases hu
      have hopen := (h.lists.open_iff id t ht).mpr (heq ▸ hi)
      exact ⟨(hicon.opened id t (heq ▸ hi) ht).1, (hsame hopen).symm⟩
    · rw [Function.update_of_ne heq] at hu
      exact hicon.opened i u hi hu

theorem windowRemoved_spec (hicons : Icons windowApp s.destroyed s.icons)
    (hlists : Lists windowApp s.icons s.switchers s.nextId s.thumbnails) {icon : AppIcon}
    (hicon : s.icons[s.selectedIndex]? = some icon)
    (hopen : ∀ id t, s.thumbnails = some id → s.switchers id = some t → t.app = icon.app) (n : ℕ) :
    ∃ t, s.windowRemoved n = some t ∧ Inv windowApp t ∧
      Moved s s.selectedIndex (some (min n (icon.cachedWindows.length - 1))) t := by
  have hpos := List.length_pos_iff.mpr (hicons.windows_ne icon (List.mem_of_getElem? hicon))
  have hlt := (List.getElem?_eq_some_iff.mp hicon).1
  unfold State.windowRemoved
  rw [hicon]
  dsimp only
  rw [if_pos hpos]
  exact select_spec hicons hlists (fun _ => hlt) hicon _ (fun w hw => by cases hw; omega)
    (fun _ _ id t hid ht => hopen id t hid ht) false

theorem removeThumbnail_spec (h : Inv windowApp s) {w : Window} {id : ℕ} {t : ThumbnailSwitcher}
    (ht : s.switchers id = some t) (hw : w ∈ t.clones) (hlength : 1 < t.clones.length)
    (honly : ∀ i u, s.switchers i = some u → w ∈ u.clones → i = id)
    (hplace : t.fading = true ∨ t.clones.idxOf w + 1 < t.clones.length ∨ t.clones.length = 2) :
    Sound windowApp (removeThumbnail { s with destroyed := w :: s.destroyed } w id) := by
  obtain ⟨icon, hicon⟩ := h.selected
  have hclones := h.lists.clones id t ht
  have hindex := List.idxOf_lt_length_iff.mpr hw
  unfold State.removeThumbnail
  dsimp only
  rw [ht]
  dsimp only [Option.elim]
  rw [if_pos hindex, if_pos (by rw [hclones.items_eq]; exact hindex)]
  have hget : (spliceWindows s.icons t.app (t.clones.idxOf w))[s.selectedIndex]? =
      some (if icon.app = t.app then
        { icon with cachedWindows := icon.cachedWindows.eraseIdx (t.clones.idxOf w) } else icon) := by
    unfold spliceWindows
    rw [List.getElem?_map, hicon.get, Option.map_some]
  obtain ⟨u, hu, hinv, hmoved⟩ := windowRemoved_spec (s := { s with
      destroyed := w :: s.destroyed
      icons := spliceWindows s.icons t.app (t.clones.idxOf w)
      switchers := Function.update s.switchers id (some (t.without w)) })
    (h.icons.splice hclones hw hlength) (h.lists.splice ht hw honly) hget (fun i v hi hv => by
      dsimp only at hi hv
      have happ : (if icon.app = t.app then
          { icon with cachedWindows := icon.cachedWindows.eraseIdx (t.clones.idxOf w) } else icon).app =
          icon.app := by split <;> rfl
      rw [happ]
      by_cases heq : i = id
      · rw [heq, Function.update_self] at hv
        cases hv
        exact (hicon.opened id t (heq ▸ hi) ht).1
      · rw [Function.update_of_ne heq] at hv
        exact (hicon.opened i v hi hv).1) (t.clones.idxOf w)
  have hrewrite : windowRemoved { s with
      destroyed := w :: s.destroyed
      icons := spliceWindows s.icons t.app (t.clones.idxOf w)
      switchers := Function.update s.switchers id (some { t with
        clones := t.clones.eraseIdx (t.clones.idxOf w)
        items := t.items.eraseIdx (t.clones.idxOf w) }) } (t.clones.idxOf w) = some u := hu
  rw [hrewrite, Option.bind_some]
  -- the list is still there
  obtain ⟨t', ht', hclones', hfading⟩ := hmoved.keeps id (t.without w) (Function.update_self ..)
  rw [clones_without] at hclones'
  have hlength' : t'.clones.length = t.clones.length - 1 := by
    rw [hclones', List.length_erase_of_mem hw]
  rw [ht']
  dsimp only
  rw [if_pos (by omega), mod_natCast _ (by omega), Option.bind_some]
  refine hinv.highlightThumbnail ht' (Nat.mod_lt _ (by omega)) fun hopen => ?_
  -- an open list shows the windows of the selected app
  have hwas : t.fading = false := by
    by_contra hne
    have := hfading (by simpa [ThumbnailSwitcher.without] using hne)
    rw [hopen] at this
    cases this
  have hthumbnails := (h.lists.open_iff id t ht).mp hwas
  have happ := (hicon.opened id t hthumbnails ht).1
  have hwindows := hclones.windows_eq icon (List.mem_of_getElem? hicon.get) happ.symm
  rw [hmoved.currentWindow, if_pos happ.symm]
  dsimp only
  rw [← hwindows, List.length_eraseIdx_of_lt hindex, hlength']
  obtain hfade | hbefore | htwo := hplace
  · rw [hfade] at hwas
    cases hwas
  · rw [Nat.mod_eq_of_lt (by omega), Nat.min_eq_left (by omega)]
  · rw [htwo]
    simp [Nat.mod_one]

theorem windowDestroyed_spec (h : Inv windowApp s) {w : Window} (hw : WindowFits s w) :
    Sound windowApp (s.windowDestroyed w) := by
  unfold State.windowDestroyed
  obtain ⟨hnone, hcached⟩ | ⟨id, t, hone, ht, hlength, hplace⟩ := hw
  · rw [hnone]
    obtain ⟨icon, hicon⟩ := h.selected
    refine ⟨_, rfl, fun _ => ⟨⟨h.icons.apps_nodup, h.icons.windows_ne, h.icons.windows_nodup,
      h.icons.windows_app, fun icon hicon v hv => ?_⟩, h.lists, icon, hicon.get, hicon.highlighted,
      hicon.closed, hicon.opened, hicon.current⟩⟩
    rw [List.mem_cons, not_or]
    exact ⟨fun heq => hcached icon hicon (heq ▸ hv), h.icons.windows_exist icon hicon v hv⟩
  · obtain ⟨t', ht', hmem⟩ := (mem_holders h w id).mp (by rw [hone]; exact List.mem_singleton_self id)
    cases ht.symm.trans ht'
    have honly : ∀ i u, s.switchers i = some u → w ∈ u.clones → i = id := by
      intro i u hu huw
      have := (mem_holders h w i).mpr ⟨u, hu, huw⟩
      rw [hone] at this
      exact List.mem_singleton.mp this
    rw [hone, List.foldlM_cons]
    obtain ⟨u, hu, hinv⟩ := removeThumbnail_spec h ht hmem hlength honly hplace
    rw [hu]
    exact ⟨u, rfl, hinv⟩

/-! ## Every run -/

theorem step_spec (h : Inv windowApp s) {e : Event} (hmeets : Meets s e) :
    ∃ t, step s e = some t ∧ (t.isOpen = true → Inv windowApp t) ∧ KeepsSelected s e t := by
  obtain ⟨⟨-, henabled⟩, hmeets⟩ := hmeets
  have hother : (∀ app, e ≠ .appStops app) → Sound windowApp (step s e) →
      ∃ t, step s e = some t ∧ (t.isOpen = true → Inv windowApp t) ∧ KeepsSelected s e t := by
    rintro hne ⟨t, heq, ht⟩
    exact ⟨t, heq, ht, fun app happ => absurd happ (hne app)⟩
  cases e with
  | keyPress rtl keysym action => exact hother (fun _ => nofun) (keyPress_spec h rtl keysym action)
  | scroll direction => exact hother (fun _ => nofun) (scrollHandler_spec (h.touch _ _ _ _ _) direction)
  | iconMotion n => exact hother (fun _ => nofun) (iconMotion_spec h henabled)
  | thumbnailMotion id n =>
    obtain ⟨t, ht, -⟩ := henabled
    exact hother (fun _ => nofun) (thumbnailMotion_spec h ht hmeets)
  | mouseTimedOut => exact hother (fun _ => nofun) ⟨_, rfl, fun _ => h.touch _ _ _ _ _⟩
  | hoverTimeout picked => exact hother (fun _ => nofun) (hoverTimeout_spec h henabled.1 hmeets)
  | thumbnailTimeout => exact hother (fun _ => nofun) (timeoutPopupThumbnails_spec h)
  | fadedIn => exact hother (fun _ => nofun) ⟨_, rfl, fun _ => h.touch _ _ _ _ _⟩
  | fadedOut id =>
    exact hother (fun _ => nofun) ⟨_, rfl, fun _ => (destroyList_spec h hmeets id).touch _ _ _ _ _⟩
  | appStops app =>
    obtain ⟨t, heq, ht, hkeeps⟩ := removeIcon_spec h hmeets
    refine ⟨t, heq, ht, fun other hother hne => ?_⟩
    cases hother
    exact hkeeps hne
  | windowDestroyed w => exact hother (fun _ => nofun) (windowDestroyed_spec h hmeets)
  | finish => exact hother (fun _ => nofun) (finish_spec h)

theorem right_of_inv (h : Inv windowApp s) : Right s := by
  obtain ⟨icon, hicon⟩ := h.selected
  have hmem := List.mem_of_getElem? hicon.get
  have hselected : s.selectedApp = some icon.app := by
    unfold State.selectedApp
    rw [hicon.get, Option.map_some]
  refine ⟨hicon.lt, fun n hn => ⟨icon, hicon.get, hicon.current n hn⟩, fun id t ht hopen => ?_, ?_⟩
  · rw [hselected, (hicon.opened id t ((h.lists.open_iff id t ht).mp hopen) ht).1]
  · obtain hnone | ⟨n, hn⟩ := Option.eq_none_or_eq_some s.currentWindow
    · have hpos := h.windows_pos hicon.get
      refine .inl ⟨icon.app, icon.cachedWindows[0], hnone, ?_,
        h.icons.windows_exist icon hmem _ (List.getElem_mem _), ?_⟩
      · unfold State.highlightedApp
        rw [hicon.highlighted]
        exact hselected
      · unfold State.activated
        rw [hicon.get, Option.map_some, hnone]
        dsimp only
        rw [List.getElem?_eq_getElem hpos]
    · have hlt := hicon.current n hn
      obtain hclosed | ⟨id, hid⟩ := Option.eq_none_or_eq_some s.thumbnails
      · rw [(hicon.closed hclosed).1] at hn
        cases hn
      · obtain ⟨t, ht⟩ := h.lists.open_some id hid
        obtain ⟨happ, hhighlighted⟩ := hicon.opened id t hid ht
        have hclones := h.lists.clones id t ht
        refine .inr ⟨icon.cachedWindows[n], ?_, h.icons.windows_exist icon hmem _ (List.getElem_mem _), ?_⟩
        · unfold State.highlightedWindow
          rw [hid, Option.bind_some, ht, Option.bind_some, hhighlighted, hn, Option.bind_some,
            hclones.items_eq, hclones.windows_eq icon hmem happ.symm]
          exact List.getElem?_eq_getElem hlt
        · unfold State.activated
          rw [hicon.get, Option.map_some, hn]
          dsimp only
          rw [List.getElem?_eq_getElem hlt, Option.map_some]

theorem show_spec (l : Listing) (backward : Bool) (binding : Binding) :
    Sound l.windowApp (l.show backward binding) := by
  have hwindows : ∀ icon ∈ l.icons, 0 < icon.cachedWindows.length ∧
      icon.cachedWindows = l.allWindows.filter fun w => l.windowApp w = icon.app := by
    intro icon hicon
    obtain ⟨hmem, hpos⟩ := List.mem_filter.mp hicon
    obtain ⟨app, -, rfl⟩ := List.mem_map.mp hmem
    exact ⟨by simpa using hpos, rfl⟩
  have hicons : Icons l.windowApp [] l.icons := by
    refine ⟨?_, fun icon hicon => List.length_pos_iff.mp (hwindows icon hicon).1, fun icon hicon => ?_,
      fun icon hicon w hw => ?_, fun _ _ _ _ => List.not_mem_nil⟩
    · refine List.Nodup.sublist ((List.filter_sublist).map _) ?_
      rw [List.map_map]
      exact l.apps_nodup.map fun _ _ heq => heq
    · rw [(hwindows icon hicon).2]
      exact l.windows_nodup.filter _
    · rw [(hwindows icon hicon).2] at hw
      simpa using (List.mem_filter.mp hw).2
  have hlists : Lists l.windowApp l.icons (fun _ => none) 0 none :=
    ⟨fun _ _ => rfl, nofun, nofun, nofun⟩
  have hselect : ∀ (n : ℕ) (icon : AppIcon) (window : Option ℕ), l.icons[n]? = some icon →
      (∀ w, window = some w → w < icon.cachedWindows.length) →
      Sound l.windowApp (l.new.select n window false) := by
    intro n icon window hicon hwindow
    obtain ⟨t, heq, ht, -⟩ := select_spec (s := l.new) hicons hlists (fun hne => absurd rfl hne) hicon window
      hwindow (fun _ _ id t hid => (nomatch hid)) false
    exact ⟨t, heq, fun _ => ht⟩
  have happ : ∀ n, n < l.icons.length → Sound l.windowApp (l.new.select n none false) :=
    fun n hn => hselect n _ none (List.getElem?_eq_getElem hn) nofun
  unfold Listing.show
  split
  · exact fadeAndDestroy_spec _ _
  · next hne =>
    have hfirst := List.getElem?_eq_getElem (show 0 < l.icons.length by omega)
    have hpos := (hwindows _ (List.mem_of_getElem? hfirst)).1
    have hlast : Sound l.windowApp (l.new.select (l.icons.length - 1) none false) := happ _ (by omega)
    unfold initialSelection
    cases binding with
    | switchGroup =>
      show Sound l.windowApp (l.icons[0]?.bind _)
      rw [hfirst, Option.bind_some]
      split
      · exact hselect 0 _ _ hfirst (fun w hw => by cases hw; omega)
      · split
        · exact hselect 0 _ _ hfirst (fun w hw => by cases hw; omega)
        · exact hselect 0 _ _ hfirst (fun w hw => by cases hw; omega)
    | switchGroupBackward =>
      show Sound l.windowApp (l.icons[0]?.bind _)
      rw [hfirst, Option.bind_some]
      exact hselect 0 _ _ hfirst (fun w hw => by cases hw; omega)
    | switchApplicationsBackward => exact hlast
    | other =>
      show Sound l.windowApp (if l.icons.length = 1 then _ else _)
      split
      · exact happ 0 (by omega)
      · split
        · exact hlast
        · exact happ 1 (by omega)

/-- In every run whose steps all meet their condition the selection is right. -/
theorem selects_of_meets (l : Listing) (backward : Bool) (binding : Binding) :
    Selects Meets l backward binding := by
  obtain ⟨start, hshow, hstart⟩ := show_spec l backward binding
  refine ⟨start, hshow, fun s hreach hopen => ?_⟩
  have hinv : s.isOpen = true → Inv l.windowApp s := by
    refine hreach.invariant (I := fun u => u.isOpen = true → Inv l.windowApp u) hstart ?_
    intro u e v hu hok hstep hv
    obtain ⟨t, heq, ht, -⟩ := step_spec (hu hok.1.1) hok
    cases heq.symm.trans hstep
    exact ht hv
  refine ⟨right_of_inv (hinv hopen), fun e he => ?_⟩
  obtain ⟨t, heq, -, hkeeps⟩ := step_spec (hinv hopen) he
  exact ⟨t, heq, hkeeps⟩

def twoApps : Listing := ⟨[0, 1], [0, 1], id, by decide, by decide⟩

/-- The thumbnails of the second app are open when the first one stops. -/
theorem not_selects_twoApps : ¬Selects Enabled twoApps false .other := by
  rintro ⟨start, hshow, hruns⟩
  let down : Event := .keyPress false .down .other
  have hopen : ((twoApps.show false .other).map (·.isOpen)) = some true := rfl
  have hdown : ((twoApps.show false .other).bind (step · down)).map (·.isOpen) = some true := rfl
  have hstops : ((twoApps.show false .other).bind (step · down)).bind (step · (.appStops 0)) = none := rfl
  rw [hshow] at hopen hdown hstops
  have hstart : start.isOpen = true := Option.some.inj hopen
  obtain ⟨s, hs, -⟩ := (hruns start .refl hstart).2 down ⟨hstart, trivial⟩
  rw [Option.bind_some, hs] at hdown hstops
  have hstill : s.isOpen = true := Option.some.inj hdown
  obtain ⟨t, ht, -⟩ := (hruns s (.tail .refl ⟨hstart, trivial⟩ hs) hstill).2 (.appStops 0) ⟨hstill, trivial⟩
  rw [Option.bind_some, ht] at hstops
  cases hstops

end AppSwitcherPopup
