import GnomeShellMobile.MessageTray.Tray

/-!
# MessageTray — a notification that may be shown does not wait

While the banner is hidden and no transition or timer is under way, nothing but an event from
outside makes the tray look at its queue. A run never leaves a notification there that may be
shown if and only if each of its steps is `Kept`: what the tray is not connected to does not
change what may be shown, and a banner that is closed at once by `_updateState` leaves no
notification that may be shown next. The `_updateState` of that hide returns at the re-entrance
check.

* **`updateState_outcome`**: what `_updateState` can do in a sound state.
* **`sound_before`**, **`done_noneWaits_iff`**: what the handlers leave to it, or leave.
* **`noneWaits_run_iff`**: the runs.
-/

namespace MessageTray

variable {e : Event}

theorem Result.ok_bind (s : State) (f : State → Result) : (Except.ok s : Result) >>= f = f s := rfl

namespace State

variable {s : State} {u : State} {b : Banner}

/-! ## What may be shown -/

def CanShow (s : State) : Prop :=
  s.bannerBlocked = false ∧ s.env.hasMonitor = true ∧ s.hasNotifications = true ∧
    ∃ n ∈ s.dropAcknowledged.notificationQueue.head?, s.showNext n = true
deriving Decidable

def Quiet (s : State) : Prop :=
  s.notificationState = .hidden ∧ s.showTransition = false ∧ s.hideTransition = false ∧
    s.notificationTimeout = false ∧ s.notificationLeftTimeout = false
deriving Decidable

def NoneWaits (s : State) : Prop := s.Quiet → ¬ s.CanShow
deriving Decidable

/-! ## `_updateState` and the banner -/

/-- `_updateState` goes past its first checks. -/
def Open (s : State) : Prop :=
  s.bannerBlocked = false ∧ s.env.hasMonitor = true ∧ s.updatingState = false
deriving Decidable

def OnScreen (s : State) : Prop :=
  s.notificationState = .showing ∨ s.notificationState = .shown
deriving Decidable

/-- `_updateState` closes the banner, and the transition for that completes at once. -/
def ClosesAtOnce (s : State) : Prop :=
  s.Open ∧ s.OnScreen ∧ ∃ b ∈ s.banner, s.mustClose b = true ∧
    (s.animateHide && s.env.animationsEnabled) = false
deriving Decidable

/-! ## Sound states -/

variable (s)

structure Shape : Prop where
  ofHidden : s.notificationState = .hidden → s.banner = none
  ofShowing : s.notificationState = .showing → s.banner ≠ none
  ofHiding : s.notificationState = .hiding →
    s.showTransition = false ∧ ∃ b ∈ s.banner, b.connected = false
  hideTransition : s.hideTransition = true ↔ s.notificationState = .hiding
  nodup : s.notificationQueue.Nodup
  notQueued : ∀ n ∈ s.current, n ∉ s.notificationQueue

/-- The state after a show transition that outlived its notification: there is no banner, and
`_updateState` throws or does nothing from now on. -/
def Stuck : Prop := s.notificationState = .shown ∧ s.banner = none

structure Sound : Prop extends Shape s where
  /-- the flag stays set only when `_updateState` threw -/
  updating : s.updatingState = true → s.Stuck

structure Up : Prop where
  banner : s.banner ≠ none
  onScreen : s.OnScreen
  hideTransition : s.hideTransition = false
  nodup : s.notificationQueue.Nodup
  notQueued : ∀ n ∈ s.current, n ∉ s.notificationQueue

variable {s}

theorem OnScreen.not_hidden (h : s.OnScreen) : s.notificationState ≠ .hidden := by
  intro hst
  rcases h with h | h <;> rw [hst] at h <;> cases h

theorem OnScreen.not_hiding (h : s.OnScreen) : s.notificationState ≠ .hiding := by
  intro hst
  rcases h with h | h <;> rw [hst] at h <;> cases h

theorem onScreen_of_ne (h1 : s.notificationState ≠ .hidden)
    (h2 : s.notificationState ≠ .hiding) : s.OnScreen := by
  unfold OnScreen
  revert h1 h2
  cases s.notificationState <;> simp

theorem Up.shape (h : s.Up) : s.Shape where
  __ := h
  ofHidden hst := absurd hst h.onScreen.not_hidden
  ofShowing _ := h.banner
  ofHiding hst := absurd hst h.onScreen.not_hiding
  hideTransition := by
    rw [h.hideTransition]
    exact ⟨nofun, fun hst => absurd hst h.onScreen.not_hiding⟩

theorem Shape.sound (h : s.Shape) (hu : s.updatingState = false) : s.Sound :=
  ⟨h, fun h => by rw [hu] at h; cases h⟩

theorem Sound.not_updating (h : s.Sound) (hb : s.banner ≠ none) : s.updatingState = false := by
  cases hu : s.updatingState with
  | false => rfl
  | true => exact absurd (h.updating hu).2 hb

theorem Sound.hideTransition_false (h : s.Sound) (hst : s.notificationState ≠ .hiding) :
    s.hideTransition = false := by
  cases ht : s.hideTransition with
  | false => rfl
  | true => exact absurd (h.hideTransition.mp ht) hst

/-! ## The parts of `_updateState` -/

@[simp] theorem resetNotificationLeftTimeout_left (s : State) :
    s.resetNotificationLeftTimeout.notificationLeftTimeout = false := by
  unfold resetNotificationLeftTimeout
  split
  · rfl
  · next h => simpa using h

def closed (s : State) : State :=
  { s with
    notificationState := .hidden
    hideTransition := false
    pointerInNotification := false
    notificationRemoved := false
    banner := none }

theorem hideStopped_eq (hb : s.banner = some b)
    (hq : b.notification ∉ s.notificationQueue) : s.hideStopped = .ok s.closed := by
  simp only [hideStopped, hideNotificationCompleted, hb]
  rw [List.erase_of_not_mem hq, ite_self]
  rfl

variable (upd : State → Result)

theorem removeAllTransitions_eq (h : s.hideTransition = false) :
    s.removeAllTransitions upd = { s with showTransition := false } := by
  simp [removeAllTransitions, h]

theorem Up.showCompleted (h : s.Up) :
    ∃ v : State, v.Up ∧ v.updatingState = s.updatingState ∧ s.showCompleted = .ok v := by
  unfold State.showCompleted
  split
  · next hb => exact absurd hb h.banner
  · split
    all_goals
      refine ⟨_, ?_, ?_, rfl⟩
      · exact ⟨h.banner, .inr rfl, h.hideTransition, h.nodup, h.notQueued⟩
      · rfl

/-- `_updateShowingNotification`, when no hide is to be stopped: the banner is up in the end, or
its transition is complete already and `_updateState` was called with the banner up. -/
theorem updateShowingNotification_eq
    (hb : s.banner = some b) (hh : s.hideTransition = false) (hnd : s.notificationQueue.Nodup)
    (hq : b.notification ∉ s.notificationQueue) :
    ∃ v : State, v.Up ∧ v.updatingState = s.updatingState ∧
      (s.updateShowingNotification upd = .ok v ∨ s.updateShowingNotification upd = upd v) := by
  simp only [updateShowingNotification, beginShow, hb, Result.ok_bind]
  rw [removeAllTransitions_eq upd (s := s.markShowing b) hh]
  have hup : ∀ t, Up { s.markShowing b with showTransition := t } := by
    refine fun t => ⟨nofun, .inl rfl, hh, hnd, fun n hn => ?_⟩
    cases hn
    exact hq
  split
  · exact ⟨_, hup true, rfl, .inl rfl⟩
  · -- the duration is zero: `onComplete` is called from inside of `ease`
    obtain ⟨v, hv, hupd, heq⟩ := (hup false).showCompleted
    rw [heq]
    exact ⟨v, hv, hupd, .inr rfl⟩

theorem Up.notePointer (h : s.Up) : s.notePointer.Up := by
  unfold State.notePointer resetNotificationLeftTimeout
  split
  · exact ⟨h.banner, h.onScreen, h.hideTransition, h.nodup, h.notQueued⟩
  · exact ⟨h.banner, h.onScreen, h.hideTransition, h.nodup, h.notQueued⟩

theorem notePointer_updatingState (s : State) : s.notePointer.updatingState = s.updatingState := by
  unfold notePointer resetNotificationLeftTimeout
  split <;> rfl

theorem showNotification_eq {n : NotificationId} {rest : List NotificationId}
    (hqueue : s.notificationQueue = n :: rest) (hh : s.hideTransition = false)
    (hnd : s.notificationQueue.Nodup) :
    ∃ v : State, v.Up ∧ v.updatingState = s.updatingState ∧ s.showNotification = .ok v := by
  rw [hqueue] at hnd
  obtain ⟨v, hup, hupd, hv | hv⟩ := updateShowingNotification_eq .ok
    (s := s.takeNotification n rest) rfl hh (List.nodup_cons.mp hnd).2 (List.nodup_cons.mp hnd).1
  all_goals
    refine ⟨v.notePointer, hup.notePointer, (notePointer_updatingState v).trans hupd, ?_⟩
    simp only [showNotification, hqueue, hv, Result.ok_bind]

structure SameOffer (s v : State) : Prop where
  env : v.env = s.env
  busy : v.busy = s.busy
  bannerBlocked : v.bannerBlocked = s.bannerBlocked
  queue : v.notificationQueue = s.notificationQueue

theorem SameOffer.canShow_iff {s v : State} (h : SameOffer s v) : v.CanShow ↔ s.CanShow := by
  unfold CanShow State.hasNotifications dropAcknowledged showNext limited notification
  rw [h.env, h.busy, h.bannerBlocked, h.queue]

structure Lowered (s v : State) : Prop extends SameOffer s v where
  updatingState : v.updatingState = s.updatingState
  notificationTimeout : v.notificationTimeout = s.notificationTimeout
  left : v.notificationLeftTimeout = false
  showTransition : v.showTransition = false
  current : ∀ n ∈ v.current, n ∈ s.current

theorem beginHide_eq (hs : s.Up) :
    ∃ v : State, Lowered s v ∧ v.notificationState = .hiding ∧
      (∃ b, v.banner = some b ∧ b.connected = false) ∧ s.beginHide upd = .ok v := by
  obtain ⟨b, hb⟩ := Option.ne_none_iff_exists'.mp hs.banner
  simp only [beginHide, hb]
  have hh : (s.disconnectBanner b).hideTransition = false := by
    unfold disconnectBanner resetNotificationLeftTimeout
    split <;> exact hs.hideTransition
  rw [removeAllTransitions_eq upd hh]
  have hcur : ∀ n ∈ some b.notification, n ∈ s.current := by
    intro n hn
    rw [current, hb]
    exact hn
  have hleft := resetNotificationLeftTimeout_left
    { s with banner := some { b with connected := false } }
  refine ⟨_, ?_, rfl, ⟨{ b with connected := false }, ?_, rfl⟩, rfl⟩
  · unfold disconnectBanner
    unfold resetNotificationLeftTimeout at hleft ⊢
    split
    · exact ⟨⟨rfl, rfl, rfl, rfl⟩, rfl, rfl, rfl, rfl, hcur⟩
    · next h =>
      have hfalse : s.notificationLeftTimeout = false := by simpa using h
      exact ⟨⟨rfl, rfl, rfl, rfl⟩, rfl, rfl, hfalse, rfl, hcur⟩
  · unfold disconnectBanner resetNotificationLeftTimeout
    split <;> rfl

theorem Lowered.nodup {s v : State} (h : Lowered s v) (hs : s.Up) : v.notificationQueue.Nodup := by
  rw [h.queue]
  exact hs.nodup

theorem Lowered.notQueued {s v : State} (h : Lowered s v) (hs : s.Up) :
    ∀ n ∈ v.current, n ∉ v.notificationQueue := by
  intro n hn
  rw [h.queue]
  exact hs.notQueued n (h.current n hn)

theorem Lowered.hideStopped {s v : State} (h : Lowered s v) (hs : s.Up) (hb : v.banner = some b) :
    v.hideStopped = .ok v.closed ∧ Lowered s v.closed ∧ v.closed.Shape := by
  have hcur : b.notification ∈ v.current := by
    rw [State.current, hb]
    rfl
  refine ⟨hideStopped_eq hb (h.notQueued hs _ hcur), ?_, ?_⟩
  · exact ⟨⟨h.env, h.busy, h.bannerBlocked, h.queue⟩, h.updatingState, h.notificationTimeout,
      h.left, h.showTransition, nofun⟩
  · exact ⟨fun _ => rfl, nofun, nofun, ⟨nofun, nofun⟩, h.nodup hs, nofun⟩

/-- `_hideNotification` of a banner that is up: its transition is under way in the end, or it is
complete already and `_updateState` was called with the banner hidden. -/
theorem hideNotification_eq (animate : Bool) (hs : s.Up) :
    if animate && s.env.animationsEnabled then
      ∃ v : State, Lowered s v ∧ v.Shape ∧ v.notificationState = .hiding ∧
        s.hideNotification upd animate = .ok v
    else
      ∃ v : State, Lowered s v ∧ v.Shape ∧ v.notificationState = .hidden ∧
        s.hideNotification upd animate = upd v := by
  obtain ⟨v, hv, hst, ⟨b, hb, hcon⟩, heq⟩ := beginHide_eq upd hs
  rw [← hv.env]
  simp only [hideNotification, heq, Result.ok_bind]
  split
  · refine ⟨_, ?_, ?_, ?_, rfl⟩
    · exact ⟨⟨hv.env, hv.busy, hv.bannerBlocked, hv.queue⟩, hv.updatingState,
        hv.notificationTimeout, hv.left, hv.showTransition, hv.current⟩
    · exact ⟨fun h => absurd (hst.symm.trans h) nofun, fun h => absurd (hst.symm.trans h) nofun,
        fun _ => ⟨hv.showTransition, b, hb, hcon⟩, ⟨fun _ => hst, fun _ => rfl⟩, hv.nodup hs,
        hv.notQueued hs⟩
    · exact hst
  · obtain ⟨hstopped, hclosed, hshape⟩ := hv.hideStopped hs hb
    rw [hstopped]
    exact ⟨v.closed, hclosed, hshape, rfl, rfl⟩

/-! ## What `_updateState` can do -/

/-- The state that the branches of `_updateState` find. -/
def entered (s : State) : State := { s with updatingState := true }.dropAcknowledged

theorem updateState_closed (h : ¬ s.Open) : s.updateState = .ok s := by
  unfold updateState
  split
  · rfl
  split
  · rfl
  · next h1 h2 => exact absurd ⟨by grind, by grind, by simpa using h2⟩ h

theorem updateState_open (h : s.Open) :
    s.updateState = s.entered.updateBranch >>= fun s => .ok s.endUpdate := by
  obtain ⟨hblocked, hmonitor, hupdating⟩ := h
  simp [updateState, hblocked, hmonitor, hupdating, entered]

theorem dropAcknowledged_idem (s : State) : s.dropAcknowledged.dropAcknowledged.notificationQueue =
      s.dropAcknowledged.notificationQueue := by
  simp [dropAcknowledged, notification, List.filter_filter]

theorem canShow_entered (s : State) : s.entered.CanShow ↔ s.CanShow := by
  have hdrop := dropAcknowledged_idem { s with updatingState := true }
  unfold CanShow
  rw [show s.entered.dropAcknowledged.notificationQueue = _ from hdrop]
  exact Iff.rfl

/-- What a call of `_updateState` can come to. -/
inductive Outcome (u : State) : Result → Prop where
  | skipped (hclosed : ¬ u.Open) : Outcome u (.ok u)
  | waits (hst : u.notificationState = .hidden) (hno : ¬ u.CanShow) :
      Outcome u (.ok u.entered.endUpdate)
  | shows (hst : u.notificationState = .hidden) {v : State} (hv : v.Up) :
      Outcome u (.ok v.endUpdate)
  | stays (hon : u.OnScreen) (hnot : ¬ u.ClosesAtOnce) {v : State} (hv : v.Up) : Outcome u (.ok v.endUpdate)
  | lowers (hon : u.OnScreen) (hnot : ¬ u.ClosesAtOnce) {v : State} (hv : v.Shape)
      (hst : v.notificationState = .hiding) : Outcome u (.ok v.endUpdate)
  | closes (hcloses : u.ClosesAtOnce) {v : State} (hv : Lowered u.entered v) (hshape : v.Shape)
      (hst : v.notificationState = .hidden) : Outcome u (.ok v.endUpdate)
  | underway (hst : u.notificationState = .hiding) : Outcome u (.ok u.entered.endUpdate)
  | stuck (hst : u.Stuck) : Outcome u (.ok u.entered.endUpdate)
  | throws (hst : u.Stuck) : Outcome u (.error u.entered)

theorem nodup_entered (h : s.notificationQueue.Nodup) : s.entered.notificationQueue.Nodup :=
  h.filter _

theorem Shape.up (h : s.Shape) (hon : s.OnScreen) (hb : s.banner ≠ none) : s.Up where
  __ := h
  banner := hb
  onScreen := hon
  hideTransition := by
    cases ht : s.hideTransition with
    | false => rfl
    | true => exact absurd (h.hideTransition.mp ht) hon.not_hiding

theorem Up.entered (h : s.Up) : s.entered.Up :=
  ⟨h.banner, h.onScreen, h.hideTransition, nodup_entered h.nodup, fun n hn hq =>
    h.notQueued n hn (List.mem_filter.mp hq).1⟩

theorem updateHidden_outcome (hu : u.Shape) (hst : u.notificationState = .hidden) :
    Outcome u (u.entered.updateHidden >>= fun s => .ok s.endUpdate) := by
  have hh : u.entered.hideTransition = false := by
    cases ht : u.hideTransition with
    | false => exact ht
    | true => exact nomatch hst.symm.trans (hu.hideTransition.mp ht)
  unfold updateHidden
  split
  · next hq =>
    refine .waits hst fun hcan => ?_
    obtain ⟨-, -, -, n, hn, -⟩ := hcan
    rw [show u.dropAcknowledged.notificationQueue = [] from hq] at hn
    cases hn
  · next n rest hq =>
    split
    · obtain ⟨v, hup, -, hv⟩ := showNotification_eq hq hh (nodup_entered hu.nodup)
      rw [hv]
      exact .shows hst hup
    · next hshow =>
      refine .waits hst fun hcan => hshow ?_
      obtain ⟨-, -, hhas, m, hm, hnext⟩ := hcan
      rw [show u.dropAcknowledged.notificationQueue = n :: rest from hq] at hm
      cases hm
      exact Bool.and_eq_true_iff.mpr ⟨hhas, hnext⟩

theorem updateShown_outcome (hu : u.Up) (hopen : u.Open) (hb : u.banner = some b) :
    Outcome u (u.entered.updateShown b >>= fun s => .ok s.endUpdate) := by
  unfold updateShown
  split
  · next hclose =>
    have hhide := hideNotification_eq .ok u.entered.animateHide hu.entered
    split at hhide
    · next hanim =>
      obtain ⟨v, hv, hshape, hst, heq⟩ := hhide
      rw [heq]
      refine .lowers hu.onScreen (fun hc => ?_) hshape hst
      obtain ⟨-, -, -, -, -, hnot⟩ := hc
      exact nomatch hnot.symm.trans hanim
    · next hanim =>
      obtain ⟨v, hv, hshape, hst, heq⟩ := hhide
      rw [heq]
      exact .closes ⟨hopen, hu.onScreen, b, hb, hclose, Bool.eq_false_of_not_eq_true hanim⟩ hv hshape hst
  · next hclose =>
    have hnot : ¬ u.ClosesAtOnce := by
      rintro ⟨-, -, c, hc, hmust, -⟩
      rw [hb] at hc
      cases hc
      exact hclose hmust
    split
    · refine .stays hu.onScreen hnot (v := _) ?_
      exact ⟨nofun, hu.onScreen, hu.hideTransition, nodup_entered hu.nodup, fun n hn hq =>
        hu.notQueued n (by rw [current, hb]; exact hn) (List.mem_filter.mp hq).1⟩
    · exact .stays hu.onScreen hnot hu.entered

theorem updateState_outcome (hu : u.Sound) : Outcome u u.updateState := by
  by_cases hopen : u.Open
  swap
  · rw [updateState_closed hopen]
    exact .skipped hopen
  rw [updateState_open hopen]
  unfold updateBranch
  split
  · next hst => exact updateHidden_outcome hu.toShape hst
  · next hst => exact .underway hst
  · next b hb hnothidden hnothiding =>
    have hon : u.OnScreen := onScreen_of_ne hnothidden hnothiding
    exact updateShown_outcome (hu.up hon (by rw [show u.banner = _ from hb]; nofun)) hopen hb
  · next hb hnothidden hnothiding =>
    have hon : u.OnScreen := onScreen_of_ne hnothidden hnothiding
    have hst : u.Stuck := ⟨hon.resolve_left fun h => hu.ofShowing h hb, hb⟩
    unfold updateShownNull
    split
    · exact .throws hst
    · exact .stuck hst

theorem Shape.entered (h : s.Shape) : s.entered.Shape :=
  ⟨h.ofHidden, h.ofShowing, h.ofHiding, h.hideTransition, nodup_entered h.nodup,
    fun n hn hq => h.notQueued n hn (List.mem_filter.mp hq).1⟩

theorem Shape.endUpdate (h : s.Shape) : s.endUpdate.Sound :=
  Shape.sound ⟨h.ofHidden, h.ofShowing, h.ofHiding, h.hideTransition, h.nodup, h.notQueued⟩ rfl

theorem Outcome.sound {r : Result} (hu : u.Sound) (h : Outcome u r) : r.state.Sound := by
  cases h with
  | skipped => exact hu
  | waits | underway | stuck => exact hu.toShape.entered.endUpdate
  | shows _ hv => exact hv.shape.endUpdate
  | stays _ _ hv => exact hv.shape.endUpdate
  | lowers _ _ hv => exact hv.endUpdate
  | closes _ _ hshape => exact hshape.endUpdate
  | throws hst => exact ⟨hu.toShape.entered, fun _ => hst⟩

structure Settled (r : Result) : Prop where
  sound : r.state.Sound
  error : ∀ v, r = .error v → v.Stuck

theorem Sound.settled (hs : s.Sound) : Settled (.ok s) :=
  ⟨hs, fun _ hv => by cases hv⟩

theorem Outcome.error {r : Result} (h : Outcome u r) {v : State} (hv : r = .error v) : v.Stuck := by
  cases h with
  | throws hst =>
    cases hv
    exact hst
  | _ => cases hv

theorem Sound.updateState_settled (hu : u.Sound) : Settled u.updateState :=
  ⟨(updateState_outcome hu).sound hu, fun _ => (updateState_outcome hu).error⟩

theorem Outcome.noneWaits_iff {r : Result} (hu : u.Sound) (h : Outcome u r) :
    r.state.NoneWaits ↔ (u.ClosesAtOnce → u.notificationTimeout = true ∨ ¬ u.CanShow) := by
  cases h with
  | skipped hclosed =>
    refine iff_of_true (fun hq hcan => hclosed ?_) fun hc => absurd hc.1 hclosed
    refine ⟨hcan.1, hcan.2.1, Bool.eq_false_of_not_eq_true fun hupd => ?_⟩
    exact nomatch hq.1.symm.trans (hu.updating hupd).1
  | waits hst hno =>
    refine iff_of_true (fun _ hcan => hno ((canShow_entered u).mp hcan)) fun hc => ?_
    exact absurd hst hc.2.1.not_hidden
  | shows hst hv =>
    refine iff_of_true (fun hq => absurd hq.1 hv.onScreen.not_hidden) fun hc => ?_
    exact absurd hst hc.2.1.not_hidden
  | stays _ hnot hv =>
    exact iff_of_true (fun hq => absurd hq.1 hv.onScreen.not_hidden) fun hc => absurd hc hnot
  | lowers _ hnot _ hst =>
    exact iff_of_true (fun hq => nomatch hst.symm.trans hq.1) fun hc => absurd hc hnot
  | underway hst =>
    refine iff_of_true (fun hq => nomatch hst.symm.trans hq.1) fun hc => ?_
    exact absurd hst hc.2.1.not_hiding
  | stuck hst | throws hst =>
    refine iff_of_true (fun hq => nomatch hst.1.symm.trans hq.1) fun hc => ?_
    obtain ⟨-, -, b, hb, -⟩ := hc
    rw [hst.2] at hb
    cases hb
  | closes hcloses hv hshape hst =>
    next v =>
    have hcan : v.endUpdate.CanShow ↔ u.CanShow :=
      hv.toSameOffer.canShow_iff.trans (canShow_entered u)
    have hquiet : v.endUpdate.Quiet ↔ u.notificationTimeout = false := by
      have hhide : v.hideTransition = false :=
        Bool.eq_false_of_not_eq_true fun ht => nomatch hst.symm.trans (hshape.hideTransition.mp ht)
      have htime : v.notificationTimeout = u.notificationTimeout := hv.notificationTimeout
      constructor
      · rintro ⟨-, -, -, ht, -⟩
        exact htime.symm.trans ht
      · intro ht
        exact ⟨hst, hv.showTransition, hhide, htime.trans ht, hv.left⟩
    change v.endUpdate.NoneWaits ↔ _
    rw [NoneWaits, hcan, hquiet]
    cases ht : u.notificationTimeout with
    | false => simp [hcloses]
    | true => simp

/-! ## The handlers -/

def Handled.before : Handled → State
  | .update s => s
  | .done s => s

theorem thenUpdate_before (r : Result) : (thenUpdate r).before = r.state := by
  cases r <;> rfl

theorem updateState_of_hidden (hu : u.Shape) (hst : u.notificationState = .hidden)
    (hupd : u.updatingState = false) :
    u.updateState.state.Sound ∧ u.updateState.state.notificationState ≠ .hiding ∧
      u.updateState.state.updatingState = false := by
  have hs := hu.sound hupd
  have hout := updateState_outcome hs
  refine ⟨hout.sound hs, ?_⟩
  generalize u.updateState = r at hout
  cases hout with
  | skipped => exact ⟨fun h => (nomatch hst.symm.trans h), hupd⟩
  | waits => exact ⟨fun h => (nomatch hst.symm.trans h), rfl⟩
  | shows _ hv => exact ⟨hv.onScreen.not_hiding, rfl⟩
  | stays hon | lowers hon => exact absurd hst hon.not_hidden
  | closes hcloses => exact absurd hst hcloses.2.1.not_hidden
  | underway h => exact nomatch hst.symm.trans h
  | stuck h | throws h => exact nomatch hst.symm.trans h.1

theorem Up.completed_settled (h : s.Up) (hupd : s.updatingState = false) :
    Settled (s.showCompleted >>= updateState) := by
  obtain ⟨v, hv, hvupd, heq⟩ := h.showCompleted
  rw [heq]
  exact (hv.shape.sound (hvupd.trans hupd)).updateState_settled

theorem showCompleted_none (hb : s.banner = none) (hs : s.Sound)
    (hnot : s.notificationState ≠ .hiding) :
    ∃ v : State, s.showCompleted = .error v ∧ v.Sound ∧ v.Stuck := by
  have hcur : s.current = none := by rw [current, hb]; rfl
  refine ⟨{ s with notificationState := .shown, showTransition := false }, ?_, ?_, rfl, hb⟩
  · unfold State.showCompleted
    split
    · rfl
    · next hsome => exact nomatch hb.symm.trans hsome
  · refine ⟨⟨nofun, nofun, nofun, ?_, hs.nodup, ?_⟩, fun _ => ⟨rfl, hb⟩⟩
    · change s.hideTransition = true ↔ _
      rw [hs.hideTransition_false hnot]
      exact ⟨nofun, nofun⟩
    · change ∀ n ∈ s.current, _
      rw [hcur]
      nofun

theorem Sound.updateShowing (hs : s.Sound) (hb : s.banner = some b) :
    Settled (s.updateShowingNotification updateState) := by
  have hq : b.notification ∉ s.notificationQueue := hs.notQueued _ (by rw [current, hb]; rfl)
  have hupd : s.updatingState = false := hs.not_updating (by rw [hb]; nofun)
  by_cases hst : s.notificationState = .hiding
  swap
  · obtain ⟨v, hv, hvupd, heq | heq⟩ := updateShowingNotification_eq updateState hb
      (hs.hideTransition_false hst) hs.nodup hq
    all_goals
      have hsound := hv.shape.sound (hvupd.trans hupd)
      rw [heq]
    · exact hsound.settled
    · exact hsound.updateState_settled
  -- `onStopped` of the hide sets the banner to null and calls `_updateState`
  have hclosed : Shape { s.markShowing b with showTransition := false }.closed :=
    ⟨fun _ => rfl, nofun, nofun, ⟨nofun, nofun⟩, hs.nodup, nofun⟩
  have hstop : (s.markShowing b).removeAllTransitions updateState =
      Result.state (updateState { s.markShowing b with showTransition := false }.closed) := by
    have heq : State.hideStopped { s.markShowing b with showTransition := false } = _ :=
      hideStopped_eq rfl hq
    simp only [removeAllTransitions]
    rw [if_pos (show (s.markShowing b).hideTransition = true from hs.hideTransition.mpr hst), heq]
    rfl
  obtain ⟨hsound, hnot, hvupd⟩ := updateState_of_hidden hclosed rfl hupd
  simp only [updateShowingNotification, beginShow, hb, Result.ok_bind, hstop]
  generalize Result.state (updateState { s.markShowing b with showTransition := false }.closed) = v
    at hsound hnot hvupd
  split
  · exact Sound.settled (Shape.sound ⟨hsound.ofHidden, hsound.ofShowing, fun h => absurd h hnot,
      hsound.hideTransition, hsound.nodup, hsound.notQueued⟩ hvupd)
  cases hvb : v.banner with
  | none =>
    -- the completion of the show finds no notification
    obtain ⟨w, heq, hw, hstuck⟩ := showCompleted_none hvb hsound hnot
    rw [heq]
    exact ⟨hw, fun x hx => by cases hx; exact hstuck⟩
  | some c =>
    have hne : v.banner ≠ none := by rw [hvb]; nofun
    exact (hsound.up (onScreen_of_ne (fun h => hne (hsound.ofHidden h)) hnot) hne).completed_settled
      hvupd

theorem Sound.frame {s v : State} (hs : s.Sound) (hb : v.banner = s.banner)
    (hst : v.notificationState = s.notificationState)
    (hshow : v.showTransition = s.showTransition) (hhide : v.hideTransition = s.hideTransition)
    (hqueue : v.notificationQueue = s.notificationQueue)
    (hupd : v.updatingState = s.updatingState) : v.Sound := by
  have hcur : v.current = s.current := by rw [current, current, hb]
  refine ⟨⟨?_, ?_, ?_, ?_, ?_, ?_⟩, ?_⟩
  · rw [hb, hst]
    exact hs.ofHidden
  · rw [hb, hst]
    exact hs.ofShowing
  · rw [hb, hst, hshow]
    exact hs.ofHiding
  · rw [hhide, hst]
    exact hs.hideTransition
  · rw [hqueue]
    exact hs.nodup
  · rw [hcur, hqueue]
    exact hs.notQueued
  · rw [hupd, Stuck, hst, hb]
    exact hs.updating

section

variable (hs : s.Sound)
include hs

theorem Sound.modifyEnv (f : Environment → Environment) : (s.modifyEnv f).Sound :=
  hs.frame rfl rfl rfl rfl rfl rfl

theorem Sound.modifyBanner {f : Banner → Banner}
    (hf : ∀ b, (f b).notification = b.notification ∧ (f b).connected = b.connected) :
    (s.modifyBanner f).Sound := by
  have hnone : (s.modifyBanner f).banner = none ↔ s.banner = none := Option.map_eq_none_iff
  have hcur : (s.modifyBanner f).current = s.current := by
    unfold current State.modifyBanner
    rw [Option.map_map, show Banner.notification ∘ f = _ from funext fun b => (hf b).1]
  refine ⟨⟨fun h => hnone.mpr (hs.ofHidden h), fun h => mt hnone.mp (hs.ofShowing h), fun h => ?_,
    hs.hideTransition, hs.nodup, hcur ▸ hs.notQueued⟩, fun h => ?_⟩
  · obtain ⟨hshow, b, hb, hcon⟩ := hs.ofHiding h
    exact ⟨hshow, f b, Option.mem_map_of_mem f hb, (hf b).2.trans hcon⟩
  · exact ⟨(hs.updating h).1, hnone.mpr (hs.updating h).2⟩

variable (n : NotificationId)

theorem Sound.modifyNotification
    (f : Notification → Notification) : (s.modifyNotification n f).Sound :=
  hs.frame rfl rfl rfl rfl rfl rfl

theorem Sound.queueNotification {n : NotificationId}
    (hcur : s.current ≠ some n) (hn : n ∉ s.notificationQueue) : (s.queueNotification n).Sound := by
  have hperm := List.perm_insertionSort (fun a b =>
    (s.notification b).urgency.toNat ≤ (s.notification a).urgency.toNat) (s.notificationQueue ++ [n])
  refine ⟨⟨hs.ofHidden, hs.ofShowing, hs.ofHiding, hs.hideTransition, ?_, fun m hm hq => ?_⟩,
    hs.updating⟩
  · refine hperm.nodup_iff.mpr (List.nodup_append.mpr ⟨hs.nodup, List.nodup_singleton n, ?_⟩)
    intro a ha b hb hab
    rw [List.mem_singleton.mp hb] at hab
    exact hn (hab ▸ ha)
  · rcases List.mem_append.mp (hperm.mem_iff.mp hq) with hq | hq
    · exact hs.notQueued m hm hq
    · rw [List.mem_singleton.mp hq] at hm
      exact hcur hm

theorem Sound.requestBanner :
    (s.onNotificationRequestBanner n).before.Sound := by
  unfold onNotificationRequestBanner
  split
  · exact hs
  split
  · exact hs
  split
  · exact hs
  split
  · next hcur =>
    obtain ⟨b, hb, -⟩ := Option.map_eq_some_iff.mp hcur
    rw [thenUpdate_before]
    exact (hs.updateShowing hb).sound
  · next hcur =>
    split
    · next h => exact hs.queueNotification hcur h.1
    · exact hs

theorem Sound.removed :
    (s.onNotificationRemoved n).before.Sound := by
  unfold onNotificationRemoved
  split
  · split
    · exact hs.frame rfl rfl rfl rfl rfl rfl
    · exact hs.frame rfl rfl rfl rfl rfl rfl
  · exact ⟨⟨hs.ofHidden, hs.ofShowing, hs.ofHiding, hs.hideTransition, hs.nodup.erase n,
      fun m hm hq => hs.notQueued m hm (List.mem_of_mem_erase hq)⟩, hs.updating⟩

theorem Sound.resetNotificationLeftTimeout :
    s.resetNotificationLeftTimeout.Sound := by
  unfold State.resetNotificationLeftTimeout
  split <;> exact hs.frame rfl rfl rfl rfl rfl rfl

theorem Sound.hoverChanged (underPointer : Bool) :
    (s.onNotificationHoverChanged underPointer).before.Sound := by
  have hreset := hs.resetNotificationLeftTimeout
  unfold onNotificationHoverChanged
  split
  · exact hs
  split
  · unfold onNotificationEntered
    split
    · exact hreset.frame rfl rfl rfl rfl rfl rfl
    split
    · exact hreset.frame rfl rfl rfl rfl rfl rfl
    · exact hreset.frame rfl rfl rfl rfl rfl rfl
  · exact hs.frame rfl rfl rfl rfl rfl rfl

theorem Sound.up_of_connected
    (h : (s.banner.map Banner.connected).getD false = true) : s.Up := by
  cases hb : s.banner with
  | none => simp [hb] at h
  | some b =>
    have hne : s.banner ≠ none := by rw [hb]; nofun
    refine hs.up (onScreen_of_ne (fun hst => hne (hs.ofHidden hst)) fun hst => ?_) hne
    obtain ⟨-, c, hc, hcon⟩ := hs.ofHiding hst
    rw [hb] at hc h
    cases hc
    simp [hcon] at h

theorem Sound.hideStopped (ht : s.hideTransition = true) :
    s.hideStopped = .ok s.closed ∧ s.closed.Sound := by
  obtain ⟨-, b, hb, -⟩ := hs.ofHiding (hs.hideTransition.mp ht)
  have hcur : b.notification ∈ s.current := by rw [current, hb]; rfl
  have hupd : s.updatingState = false := hs.not_updating (by rw [hb]; nofun)
  exact ⟨hideStopped_eq hb (hs.notQueued _ hcur),
    Shape.sound ⟨fun _ => rfl, nofun, nofun, ⟨nofun, nofun⟩, hs.nodup, nofun⟩ hupd⟩

theorem Sound.showCompleted (ht : s.showTransition = true) :
    Settled s.showCompleted := by
  have hnot : s.notificationState ≠ .hiding := by
    intro hst
    exact nomatch ht.symm.trans (hs.ofHiding hst).1
  cases hb : s.banner with
  | none =>
    obtain ⟨v, heq, hv, hstuck⟩ := showCompleted_none hb hs hnot
    rw [heq]
    exact ⟨hv, fun x hx => by cases hx; exact hstuck⟩
  | some b =>
    have hne : s.banner ≠ none := by rw [hb]; nofun
    have hup := hs.up (onScreen_of_ne (fun h => hne (hs.ofHidden h)) hnot) hne
    obtain ⟨v, hv, hvupd, heq⟩ := hup.showCompleted
    rw [heq]
    exact (hv.shape.sound (hvupd.trans (hs.not_updating hne))).settled

end

end State

open State

theorem sound_new (env : Environment) : (State.new env).Sound :=
  Shape.sound ⟨fun _ => rfl, nofun, nofun, ⟨nofun, nofun⟩, List.nodup_nil, nofun⟩ rfl

theorem sound_before {s : State} {r : Handled} (hs : s.Sound)
    (h : handle s e = some r) : r.before.Sound := by
  cases e with
  | requestBanner n =>
    cases h
    exact hs.requestBanner n
  | removed n =>
    cases h
    exact hs.removed n
  | setAcknowledged n b =>
    cases h
    unfold State.setAcknowledged
    split
    · exact hs
    split
    · exact hs.modifyNotification n fun n => { n with acknowledged := true }
    · exact (hs.modifyNotification n _).requestBanner n
  | hoverChanged b underPointer =>
    cases h
    exact (hs.modifyEnv _).hoverChanged underPointer
  | statusChanged status =>
    cases h
    cases status <;> exact hs.frame rfl rfl rfl rfl rfl rfl
  | setBannerBlocked b =>
    simp only [handle] at h
    split at h <;> cases h
    · exact hs
    · exact hs.frame rfl rfl rfl rfl rfl rfl
  | notificationTimeout =>
    simp only [handle, onNotificationTimeout] at h
    split at h <;> cases h
    split
    · exact hs.frame rfl rfl rfl rfl rfl rfl
    split <;> exact hs.frame rfl rfl rfl rfl rfl rfl
  | notificationLeftTimeout =>
    simp only [handle, onNotificationLeftTimeout] at h
    split at h <;> cases h
    split <;> exact hs.frame rfl rfl rfl rfl rfl rfl
  | userActiveWatch =>
    simp only [handle] at h
    split at h <;> cases h
    exact hs.frame rfl rfl rfl rfl rfl rfl
  | hideMessage =>
    simp only [handle] at h
    split at h
    · next hcon =>
      cases h
      have hup := hs.up_of_connected hcon
      obtain ⟨v, hv, -, ⟨b, hb, -⟩, heq⟩ := beginHide_eq updateState hup
      obtain ⟨hstopped, hclosed, hshape⟩ := hv.hideStopped hup hb
      rw [onHideMessage, thenUpdate_before, heq, Result.ok_bind, hstopped]
      exact hshape.sound (hclosed.updatingState.trans (hs.not_updating hup.banner))
    · cases h
  | showCompleted =>
    simp only [handle] at h
    split at h
    · next ht =>
      cases h
      rw [thenUpdate_before]
      exact (hs.showCompleted ht).sound
    · cases h
  | hideCompleted =>
    simp only [handle] at h
    split at h
    · next ht =>
      cases h
      obtain ⟨heq, hsound⟩ := hs.hideStopped ht
      rw [thenUpdate_before, heq]
      exact hsound
    · cases h
  | bannerUnexpanded | bannerTouched | expandActiveNotification =>
    cases h
    exact hs.modifyBanner fun _ => ⟨rfl, rfl⟩
  | _ =>
    cases h
    exact hs.frame rfl rfl rfl rfl rfl rfl

/-! ## Steps -/

namespace State

variable {n : NotificationId} {s u : State}

def QuietButLeft (s : State) : Prop :=
  s.notificationState = .hidden ∧ s.showTransition = false ∧ s.hideTransition = false ∧
    s.notificationTimeout = false
deriving Decidable

/-- An event for which `_updateState` is not called does not come when a notification then waits:
a notification is acknowledged or removed or given another urgency, the screen shield or the
monitor change, or the pointer enters a banner that popped up under it, which takes the timer
away. -/
def Heeded (s : State) : Event → Prop
  | .removed n =>
    s.Quiet → ¬ CanShow { s with notificationQueue := s.notificationQueue.erase n }
  | .setAcknowledged n b =>
    s.Quiet → ¬ (s.modifyNotification n fun n => { n with acknowledged := b }).CanShow
  | .setUrgency n u =>
    s.Quiet → ¬ (s.modifyNotification n fun n => { n with urgency := u }).CanShow
  | .setForFeedback n b =>
    s.Quiet → ¬ (s.modifyNotification n fun n => { n with forFeedback := b }).CanShow
  | .screenShieldActive b =>
    s.Quiet → ¬ (s.modifyEnv fun env => { env with screenShieldActive := b }).CanShow
  | .monitorsChanged b => s.Quiet → ¬ (s.modifyEnv fun env => { env with hasMonitor := b }).CanShow
  | .hoverChanged hover _ =>
    hover = true → s.notificationHovered = false → s.QuietButLeft → ¬ s.CanShow
  | _ => True

instance (s : State) (e : Event) : Decidable (s.Heeded e) := by
  unfold Heeded
  split <;> infer_instance

theorem canShow_congr {s v : State} (hblocked : v.bannerBlocked = s.bannerBlocked)
    (hmonitor : v.env.hasMonitor = s.env.hasMonitor)
    (hhas : v.hasNotifications = s.hasNotifications)
    (hqueue : v.notificationQueue = s.notificationQueue)
    (hack : ∀ n, (v.notification n).acknowledged = (s.notification n).acknowledged)
    (hnext : ∀ n, v.showNext n = s.showNext n) : v.CanShow ↔ s.CanShow := by
  unfold CanShow dropAcknowledged
  simp only [hblocked, hmonitor, hhas, hqueue, hack, hnext]

theorem canShow_modifyNotification {s : State} {f : Notification → Notification}
    (hack : (f (s.notification n)).acknowledged = (s.notification n).acknowledged)
    (hfeed : (f (s.notification n)).forFeedback = (s.notification n).forFeedback)
    (hurg : (f (s.notification n)).urgency = (s.notification n).urgency) :
    (s.modifyNotification n f).CanShow ↔ s.CanShow := by
  have hnot : ∀ m, (s.modifyNotification n f).notification m =
      if m = n then f (s.notification m) else s.notification m := fun _ => rfl
  refine canShow_congr rfl rfl rfl rfl (fun m => ?_) fun m => ?_
  · rw [hnot]
    split
    · next hm => rw [hm, hack]
    · rfl
  · unfold showNext
    rw [hnot]
    split
    · next hm => rw [hm, hfeed, hurg]; rfl
    · rfl

theorem NoneWaits.frame {s v : State} (hs : s.NoneWaits) (hcan : v.CanShow ↔ s.CanShow)
    (hst : v.notificationState = s.notificationState)
    (hshow : v.showTransition = s.showTransition) (hhide : v.hideTransition = s.hideTransition)
    (htime : v.notificationTimeout = s.notificationTimeout)
    (hleft : v.notificationLeftTimeout = s.notificationLeftTimeout) : v.NoneWaits := by
  unfold NoneWaits Quiet
  rw [hcan, hst, hshow, hhide, htime, hleft]
  exact hs

theorem noneWaits_of_not_hidden {s : State} (h : s.notificationState ≠ .hidden) : s.NoneWaits :=
  fun hq => absurd hq.1 h

theorem Stuck.noneWaits {s : State} (h : s.Stuck) : s.NoneWaits :=
  noneWaits_of_not_hidden (by rw [h.1]; nofun)

theorem thenUpdate_done {r : Result} {u : State} (h : thenUpdate r = .done u) : r = .error u := by
  cases r with
  | ok s => cases h
  | error s =>
    cases h
    rfl

theorem requestBanner_done (hs : s.Sound)
    (h : s.onNotificationRequestBanner n = .done u) : u = s ∨ u.Stuck ∧ s.banner ≠ none := by
  unfold onNotificationRequestBanner at h
  split at h
  · exact .inl (by cases h; rfl)
  split at h
  · exact .inl (by cases h; rfl)
  split at h
  · exact .inl (by cases h; rfl)
  split at h
  · next hcur =>
    obtain ⟨b, hb, -⟩ := Option.map_eq_some_iff.mp hcur
    exact .inr ⟨(hs.updateShowing hb).error _ (thenUpdate_done h), by rw [hb]; nofun⟩
  · split at h <;> cases h

theorem removed_done (hs : s.Sound)
    (h : s.onNotificationRemoved n = .done u) : u.NoneWaits ↔ s.Heeded (.removed n) := by
  unfold onNotificationRemoved at h
  split at h
  · next hcur =>
    -- its banner is being hidden already
    have hst : s.notificationState ≠ .hidden := by
      intro hst
      rw [current, hs.ofHidden hst] at hcur
      cases hcur
    split at h <;> cases h
    exact iff_of_true (noneWaits_of_not_hidden hst) fun hq => absurd hq.1 hst
  · cases h
    exact Iff.rfl

theorem setAcknowledged_done {b : Bool} (hs : s.Sound)
    (hw : s.NoneWaits) (h : s.setAcknowledged n b = .done u) :
    u.NoneWaits ↔ s.Heeded (.setAcknowledged n b) := by
  unfold State.setAcknowledged at h
  split at h
  · next hsame =>
    cases h
    exact iff_of_true hw fun hq hcan =>
      hw hq ((canShow_modifyNotification hsame.symm rfl rfl).mp hcan)
  split at h
  · next hb =>
    cases h
    cases hb
    exact Iff.rfl
  · next hb =>
    rw [Bool.not_eq_true] at hb
    subst hb
    rcases requestBanner_done (hs.modifyNotification n _) h with rfl | ⟨hstuck, hne⟩
    · exact Iff.rfl
    · exact iff_of_true hstuck.noneWaits fun hq => absurd (hs.ofHidden hq.1) hne

theorem hoverChanged_done {b underPointer : Bool} (hw : s.NoneWaits)
    (h : (s.modifyEnv fun env => { env with hover := b }).onNotificationHoverChanged underPointer =
      .done u) : u.NoneWaits ↔ s.Heeded (.hoverChanged b underPointer) := by
  unfold onNotificationHoverChanged at h
  split at h
  · next hsame =>
    cases h
    refine iff_of_true (hw.frame Iff.rfl rfl rfl rfl rfl rfl) fun hb hhov => ?_
    have heq : b = s.notificationHovered := hsame
    rw [hb, hhov] at heq
    cases heq
  next hne =>
  split at h
  · next hb =>
    unfold onNotificationEntered at h
    split at h
    · cases h
    split at h
    · cases h
      have hfalse : s.notificationHovered = false := by
        cases hhov : s.notificationHovered with
        | false => rfl
        | true => exact absurd (hb.trans hhov.symm) hne
      unfold resetNotificationLeftTimeout
      split
      · constructor
        · exact fun hno _ _ hq => hno ⟨hq.1, hq.2.1, hq.2.2.1, hq.2.2.2, rfl⟩
        · exact fun hno hq => hno hb hfalse ⟨hq.1, hq.2.1, hq.2.2.1, hq.2.2.2.1⟩
      · next hleft =>
        rw [Bool.not_eq_true] at hleft
        constructor
        · exact fun hno _ _ hq => hno ⟨hq.1, hq.2.1, hq.2.2.1, hq.2.2.2, hleft⟩
        · exact fun hno hq => hno hb hfalse ⟨hq.1, hq.2.1, hq.2.2.1, hq.2.2.2.1⟩
    · cases h
  · next hb =>
    cases h
    refine iff_of_true (fun hq => nomatch hq.2.2.2.2) fun h => absurd h hb

end State

theorem done_noneWaits_iff {s u : State} (hs : s.Sound) (hw : s.NoneWaits)
    (h : handle s e = some (.done u)) : u.NoneWaits ↔ s.Heeded e := by
  cases e with
  | requestBanner n =>
    rcases requestBanner_done hs (Option.some_inj.mp h) with rfl | ⟨hstuck, -⟩
    · exact iff_of_true hw trivial
    · exact iff_of_true hstuck.noneWaits trivial
  | removed n => exact removed_done hs (Option.some_inj.mp h)
  | setAcknowledged n b => exact setAcknowledged_done hs hw (Option.some_inj.mp h)
  | hoverChanged b underPointer => exact hoverChanged_done hw (Option.some_inj.mp h)
  | setUrgency n urgency =>
    cases h
    exact Iff.rfl
  | setForFeedback n b =>
    cases h
    exact Iff.rfl
  | screenShieldActive b =>
    cases h
    exact Iff.rfl
  | monitorsChanged b =>
    cases h
    exact Iff.rfl
  | setIsTransient n b =>
    cases h
    exact iff_of_true (hw.frame (canShow_modifyNotification rfl rfl rfl) rfl rfl rfl rfl rfl)
      trivial
  | policyNotify source p => cases h
  | sessionUpdated b => cases h
  | inFullscreenChanged b => cases h
  | escapeReleased => cases h
  | statusChanged status => cases status <;> cases h
  | setBannerBlocked b =>
    simp only [handle] at h
    split at h <;> cases h
    exact iff_of_true hw trivial
  | animationsChanged b | lastDeviceChanged b | idletimeChanged b | pointerMoved b =>
    cases h
    exact iff_of_true (hw.frame Iff.rfl rfl rfl rfl rfl rfl) trivial
  | expandActiveNotification | bannerUnexpanded | bannerTouched =>
    cases h
    exact iff_of_true (hw.frame Iff.rfl rfl rfl rfl rfl rfl) trivial
  | notificationTimeout =>
    simp only [handle, onNotificationTimeout] at h
    split at h
    swap
    · cases h
    refine iff_of_true ?_ trivial
    -- the timer is set again
    split at h
    · cases h
      exact fun hq => nomatch hq.2.2.2.1
    split at h <;> cases h
    exact fun hq => nomatch hq.2.2.2.1
  | notificationLeftTimeout =>
    simp only [handle, onNotificationLeftTimeout] at h
    split at h
    swap
    · cases h
    next hleft =>
    split at h <;> cases h
    exact iff_of_true (fun hq => nomatch hleft.symm.trans hq.2.2.2.2) trivial
  | userActiveWatch =>
    simp only [handle] at h
    split at h <;> cases h
  | hideMessage =>
    simp only [handle] at h
    split at h
    swap
    · cases h
    next hcon =>
    have hup := hs.up_of_connected hcon
    obtain ⟨v, hv, -, ⟨b, hb, -⟩, heq⟩ := beginHide_eq updateState hup
    rw [onHideMessage, heq, Result.ok_bind, (hv.hideStopped hup hb).1] at h
    cases h
  | showCompleted =>
    simp only [handle] at h
    split at h
    swap
    · cases h
    next ht =>
    have herr := thenUpdate_done (Option.some_inj.mp h)
    exact iff_of_true ((hs.showCompleted ht).error _ herr).noneWaits trivial
  | hideCompleted =>
    simp only [handle] at h
    split at h
    swap
    · cases h
    next ht =>
    rw [(hs.hideStopped ht).1] at h
    cases h

/-- The steps after which no notification waits. If `_updateState` closes the banner at once, then
a timer of the banner is still pending or there is no notification to show next. -/
def Kept (s : State) (e : Event) : Prop :=
  match handle s e with
  | some (.update u) => u.ClosesAtOnce → u.notificationTimeout = true ∨ ¬ u.CanShow
  | some (.done _) => s.Heeded e
  | none => True

def NoneWaitsAfter (s : State) (e : Event) : Prop := ∀ t ∈ step s e, t.NoneWaits
deriving Decidable

instance (s : State) (e : Event) : Decidable (Kept s e) :=
  match h : handle s e with
  | some (.update u) =>
    decidable_of_iff (u.ClosesAtOnce → u.notificationTimeout = true ∨ ¬ u.CanShow)
      (by simp [Kept, h])
  | some (.done _) => decidable_of_iff (s.Heeded e) (by simp [Kept, h])
  | none => .isTrue (by simp [Kept, h])

/-- **The step lemma.** -/
theorem noneWaitsAfter_iff {s : State} (hs : s.Sound) (hw : s.NoneWaits) :
    NoneWaitsAfter s e ↔ Kept s e := by
  unfold NoneWaitsAfter Kept step
  match h : handle s e with
  | some (.update u) =>
    have hu : u.Sound := sound_before hs h
    have hiff := (updateState_outcome hu).noneWaits_iff hu
    simpa [Handled.result] using hiff
  | some (.done u) =>
    have hiff := done_noneWaits_iff hs hw h
    simpa [Handled.result] using hiff
  | none => simp

theorem sound_step {s t : State} (hs : s.Sound) (h : step s e = some t) : t.Sound := by
  obtain ⟨r, hr, rfl⟩ := Option.map_eq_some_iff.mp h
  have hbefore := sound_before hs hr
  cases r with
  | update u => exact (Sound.updateState_settled hbefore).sound
  | done u => exact hbefore

/-- **No lost notification.** In a run of the tray, whatever its environment is at the start, no
step leaves a notification waiting if and only if each of its steps is kept. -/
theorem noneWaits_run_iff (env : Environment) (es : List Event) :
    Runs.Allowed step NoneWaitsAfter (State.new env) es ↔
      Runs.Allowed step Kept (State.new env) es := by
  refine Runs.Allowed.congr (I := fun s => s.Sound ∧ s.NoneWaits) ⟨sound_new env, ?_⟩ ?_ ?_
  · -- the queue is empty
    rintro - ⟨-, -, -, n, hn, -⟩
    cases hn
  · exact fun s e hs => noneWaitsAfter_iff hs.1 hs.2
  · exact fun s e t hs hok hstep => ⟨sound_step hs.1 hstep, hok t hstep⟩

def atWork : Environment where
  notifications _ := ⟨0, .normal, false, false, false⟩
  policies _ := ⟨true, false⟩
  hasMonitor := true
  inFullscreen := false
  hasNotifications := true
  screenShieldActive := false
  animationsEnabled := true
  userIdle := false
  pointer := (0, 0)
  hover := false

example : Runs.Allowed step Kept (State.new atWork)
    [.requestBanner 0, .requestBanner 1, .showCompleted, .notificationTimeout, .hideCompleted,
      .showCompleted] := by
  decide

/-- A notification is removed while its banner is shown and another one is in the queue. Its banner
is hidden without an animation, inside of `_updateState`, and the other one stays in the queue. -/
theorem not_noneWaits_after_removed :
    ¬ ∀ env es, Runs.Allowed step NoneWaitsAfter (State.new env) es := by
  intro h
  have hrun := h atWork [.requestBanner 0, .requestBanner 1, .showCompleted, .removed 0]
  revert hrun
  decide

end MessageTray
