import Mathlib.Logic.Relation
import GnomeShellMobile.MessageTray.NoneWaits

/-!
# MessageTray — how the queue moves

The handlers call `_updateState`, and the transitions that they stop or that complete at once call it
from inside of one another. Whatever comes of that, the queue only moves in two ways after a
notification was queued: notifications leave it and none is newly shown (`Quiets`), or its first
notification is shown (`Takes`). What these two keep, a handler keeps.

* **`Covers`**: a relation that the quiet moves are in and that is transitive. What the functions of
  the tray do is in it, if what they call last is.
* **`updateState_moves`**, **`moves_of_handle`**: `_updateState` and the handlers.
* **`removed_quiets`**: a notification that is removed does not make way for the next one.
-/

namespace MessageTray

namespace State

variable {s : State}

def SameNotifications (s t : State) : Prop :=
  ∀ n, (t.notification n).urgency = (s.notification n).urgency ∧
    (t.notification n).source = (s.notification n).source

structure Quiets (s t : State) : Prop where
  same : SameNotifications s t
  queue : t.notificationQueue.Sublist s.notificationQueue
  current : t.current = s.current ∨ t.current = none

structure Takes (s t : State) : Prop where
  same : SameNotifications s t
  taken : ∃ n, s.notificationQueue = n :: t.notificationQueue ∧ t.current = some n

def Move (s t : State) : Prop := Quiets s t ∨ Takes s t

abbrev Moves : State → State → Prop := Relation.ReflTransGen Move

theorem SameNotifications.trans {s t u : State} (h1 : SameNotifications s t)
    (h2 : SameNotifications t u) : SameNotifications s u := fun n =>
  ⟨(h2 n).1.trans (h1 n).1, (h2 n).2.trans (h1 n).2⟩

theorem sameNotifications_of_env {s t : State} (h : t.env.notifications = s.env.notifications) :
    SameNotifications s t := by
  intro n
  simp only [notification, h]
  exact ⟨trivial, trivial⟩

theorem Quiets.frame {s t : State} (hsame : SameNotifications s t)
    (hqueue : t.notificationQueue = s.notificationQueue) (hcur : t.current = s.current) :
    Quiets s t :=
  ⟨hsame, by rw [hqueue], .inl hcur⟩

theorem Quiets.refl (s : State) : Quiets s s :=
  .frame (sameNotifications_of_env rfl) rfl rfl

theorem Quiets.trans {s t u : State} (h1 : Quiets s t) (h2 : Quiets t u) : Quiets s u where
  same := h1.same.trans h2.same
  queue := h2.queue.trans h1.queue
  current := by
    rcases h2.current with h | h
    · rw [h]
      exact h1.current
    · exact .inr h

structure Covers (R : State → State → Prop) : Prop where
  of_quiets : ∀ {s t}, Quiets s t → R s t
  trans : ∀ {s t u}, R s t → R t u → R s u

theorem covers_quiets : Covers Quiets := ⟨id, Quiets.trans⟩

theorem covers_moves : Covers Moves := ⟨fun h => .single (.inl h), .trans⟩

/-! ## The functions of the tray -/

variable (s)

theorem resetNotificationLeftTimeout_quiets :
    Quiets s s.resetNotificationLeftTimeout := by
  unfold resetNotificationLeftTimeout
  split <;> exact .frame (sameNotifications_of_env rfl) rfl rfl

theorem hideStopped_quiets : Quiets s s.hideStopped.state := by
  unfold hideStopped hideNotificationCompleted
  split
  · exact .frame (sameNotifications_of_env rfl) rfl rfl
  · refine ⟨sameNotifications_of_env rfl, ?_, .inr rfl⟩
    -- a transient notification is destroyed
    show (if _ then _ else _ : List NotificationId).Sublist _
    split
    · exact List.erase_sublist
    · exact List.Sublist.refl _

theorem showCompleted_quiets : Quiets s s.showCompleted.state := by
  unfold showCompleted
  split
  · exact .frame (sameNotifications_of_env rfl) rfl rfl
  · split <;> exact .frame (sameNotifications_of_env rfl) rfl rfl

theorem dropAcknowledged_quiets : Quiets s s.dropAcknowledged :=
  ⟨sameNotifications_of_env rfl, List.filter_sublist, .inl rfl⟩

theorem modifyNotification_quiets (n : NotificationId) {f : Notification → Notification}
    (hf : ∀ m, (f m).urgency = m.urgency ∧ (f m).source = m.source) :
    Quiets s (s.modifyNotification n f) := by
  refine .frame (fun m => ?_) rfl rfl
  show (if m = n then _ else _ : Notification).urgency = _ ∧
    (if m = n then _ else _ : Notification).source = _
  split
  · exact hf _
  · exact ⟨rfl, rfl⟩

theorem modifyBanner_quiets {f : Banner → Banner}
    (hf : ∀ b, (f b).notification = b.notification) : Quiets s (s.modifyBanner f) := by
  refine .frame (sameNotifications_of_env rfl) rfl ?_
  show (s.banner.map f).map Banner.notification = _
  rw [Option.map_map, show Banner.notification ∘ f = _ from funext hf]
  rfl

variable {s}

theorem markShowing_quiets {b : Banner} (hb : s.banner = some b) : Quiets s (s.markShowing b) := by
  have hack := s.modifyNotification_quiets b.notification (f := fun n => { n with acknowledged := true })
    fun _ => ⟨rfl, rfl⟩
  refine ⟨hack.same, hack.queue, .inl ?_⟩
  rw [current, current, hb]
  rfl

theorem disconnectBanner_quiets {b : Banner} (hb : s.banner = some b) :
    Quiets s (s.disconnectBanner b) := by
  have hbanner : Quiets s { s with banner := some { b with connected := false } } := by
    refine .frame (sameNotifications_of_env rfl) rfl ?_
    rw [current, current, hb]
    rfl
  exact hbanner.trans
    (resetNotificationLeftTimeout_quiets { s with banner := some { b with connected := false } })

section

variable {R : State → State → Prop} (hR : Covers R) {upd : State → Result}
  (hupd : ∀ v, R v (upd v).state)
include hR

theorem Covers.bind {s : State} {r : Result} {f : State → Result} (h : R s r.state)
    (hf : ∀ v, R v (f v).state) : R s (Result.state (r >>= f)) := by
  cases r with
  | ok v => exact hR.trans h (hf v)
  | error v => exact h

include hupd

theorem Covers.removeAllTransitions (s : State) : R s (s.removeAllTransitions upd) := by
  have hstop : R s { s with showTransition := false } :=
    hR.of_quiets (.frame (sameNotifications_of_env rfl) rfl rfl)
  unfold State.removeAllTransitions
  split
  · exact hR.trans hstop (hR.bind (hR.of_quiets (hideStopped_quiets _)) hupd)
  · exact hstop

theorem Covers.beginHide (s : State) : R s (s.beginHide upd).state := by
  unfold State.beginHide
  split
  · exact hR.of_quiets (Quiets.refl s)
  · next b hb =>
    have hdisconnect : R s (s.disconnectBanner b) := hR.of_quiets (disconnectBanner_quiets hb)
    have hremove := hR.removeAllTransitions hupd (s.disconnectBanner b)
    refine hR.trans (hR.trans hdisconnect hremove) (hR.of_quiets ?_)
    exact .frame (sameNotifications_of_env rfl) rfl rfl

theorem Covers.hideNotification (animate : Bool) (s : State) :
    R s (s.hideNotification upd animate).state := by
  refine hR.bind (hR.beginHide hupd s) fun v => ?_
  split
  · exact hR.of_quiets (.frame (sameNotifications_of_env rfl) rfl rfl)
  · exact hR.bind (hR.of_quiets (hideStopped_quiets v)) hupd

theorem Covers.updateShowingNotification (s : State) :
    R s (s.updateShowingNotification upd).state := by
  refine hR.bind (r := s.beginShow upd) ?_ fun v => ?_
  · unfold beginShow
    split
    · exact hR.of_quiets (Quiets.refl s)
    · next b hb =>
      exact hR.trans (hR.of_quiets (markShowing_quiets hb)) (hR.removeAllTransitions hupd _)
  · split
    · exact hR.of_quiets (.frame (sameNotifications_of_env rfl) rfl rfl)
    · exact hR.bind (hR.of_quiets (showCompleted_quiets v)) hupd

end

/-! ## `_updateState` -/

theorem notePointer_quiets (s : State) : Quiets s s.notePointer :=
  Quiets.trans (t := { s with showNotificationMouse := s.env.pointer, lastSeenMouse := s.env.pointer })
    (.frame (sameNotifications_of_env rfl) rfl rfl) (resetNotificationLeftTimeout_quiets _)

theorem showNotification_moves (s : State) : Moves s s.showNotification.state := by
  unfold showNotification
  split
  · exact .refl
  · next n rest hqueue =>
    have htake : Takes s (s.takeNotification n rest) :=
      ⟨sameNotifications_of_env rfl, n, hqueue, rfl⟩
    have hok : ∀ v, Moves v (Result.state (.ok v)) := fun _ => .refl
    have hshow := covers_moves.updateShowingNotification hok (s.takeNotification n rest)
    exact covers_moves.bind (.head (.inr htake) hshow) fun v =>
      covers_moves.of_quiets (notePointer_quiets v)

theorem updateShown_quiets {b : Banner} (hb : s.banner = some b) :
    Quiets s (s.updateShown b).state := by
  unfold updateShown
  split
  · have hok : ∀ v, Quiets v (Result.state (.ok v)) := Quiets.refl
    exact covers_quiets.hideNotification hok _ s
  split
  · have hcur : s.current = some b.notification := congrArg (Option.map Banner.notification) hb
    exact .frame (sameNotifications_of_env rfl) rfl hcur.symm
  · exact Quiets.refl s

theorem updateBranch_moves (s : State) : Moves s s.updateBranch.state := by
  unfold updateBranch
  split
  · unfold updateHidden
    split
    · exact .refl
    · split
      · exact s.showNotification_moves
      · exact .refl
  · exact .refl
  · next b hb _ _ => exact covers_moves.of_quiets (updateShown_quiets hb)
  · unfold updateShownNull
    split <;> exact .refl

theorem endUpdate_quiets (s : State) : Quiets s s.endUpdate :=
  .frame (sameNotifications_of_env rfl) rfl rfl

theorem entered_quiets (s : State) : Quiets s s.entered := by
  have hset : Quiets s { s with updatingState := true } :=
    .frame (sameNotifications_of_env rfl) rfl rfl
  exact hset.trans (dropAcknowledged_quiets _)

theorem entered_moves (h : s.Open) : Moves s.entered s.updateState.state := by
  rw [updateState_open h]
  exact covers_moves.bind (updateBranch_moves _) fun v =>
    covers_moves.of_quiets (endUpdate_quiets v)

theorem updateState_moves (s : State) : Moves s s.updateState.state := by
  by_cases h : s.Open
  · exact (covers_moves.of_quiets s.entered_quiets).trans (entered_moves h)
  · rw [updateState_closed h]
    exact .refl

/-! ## The handlers -/

theorem Handled.moves_result {r : Handled} (h : Moves s r.before) : Moves s r.result := by
  cases r with
  | update u => exact h.trans u.updateState_moves
  | done u => exact h

/-- A notification that is removed is not in the queue and does not make way for the next one: the
`_updateState` of the hide returns at the re-entrance check. -/
theorem removed_quiets (s : State) (n : NotificationId) :
    Quiets s (s.onNotificationRemoved n).result := by
  unfold onNotificationRemoved
  split
  · next hcur =>
    obtain ⟨b, hb, -⟩ := Option.map_eq_some_iff.mp hcur
    split
    · next hst =>
      have hmark : Quiets s ({ s with
          notificationRemoved := true, pointerInNotification := false }.updateNotificationTimeout 0) :=
        .frame (sameNotifications_of_env rfl) rfl rfl
      refine hmark.trans ?_
      generalize hu : ({ s with
        notificationRemoved := true, pointerInNotification := false }.updateNotificationTimeout 0) = u
      have hst : u.notificationState = .shown ∨ u.notificationState = .showing := hu ▸ hst
      have hb : u.banner = some b := hu ▸ hb
      show Quiets u u.updateState.state
      by_cases hopen : u.Open
      · rw [updateState_open hopen]
        have hbranch : u.entered.updateBranch = u.entered.updateShown b := by
          have hb' : u.entered.banner = some b := hb
          unfold updateBranch
          rcases hst with hst | hst
          all_goals
            have hst' : u.entered.notificationState = _ := hst
            rw [hst', hb']
        rw [hbranch]
        exact u.entered_quiets.trans (covers_quiets.bind (updateShown_quiets hb) endUpdate_quiets)
      · rw [updateState_closed hopen]
        exact Quiets.refl u
    · exact .frame (sameNotifications_of_env rfl) rfl rfl
  · exact ⟨sameNotifications_of_env rfl, List.erase_sublist, .inl rfl⟩

theorem requestBanner_moves {n : NotificationId}
    (h : s.current = some n ∨ n ∈ s.notificationQueue) :
    Moves s (s.onNotificationRequestBanner n).result := by
  unfold onNotificationRequestBanner
  split
  · exact .refl
  split
  · exact .refl
  split
  · exact .refl
  split
  · apply Handled.moves_result
    rw [thenUpdate_before]
    exact covers_moves.updateShowingNotification updateState_moves s
  · next hcur =>
    rw [if_neg fun hnot => hnot.1 (h.resolve_left hcur)]
    exact s.updateState_moves

theorem requestBanner_new {n : NotificationId} (hcur : s.current ≠ some n) :
    Moves s (s.onNotificationRequestBanner n).result ∨
      n ∉ s.notificationQueue ∧
        Moves (s.queueNotification n) (s.onNotificationRequestBanner n).result := by
  unfold onNotificationRequestBanner
  split
  · exact .inl .refl
  split
  · exact .inl .refl
  split
  · exact .inl .refl
  split
  · next h => exact .inr ⟨h.1, updateState_moves _⟩
  · exact .inl s.updateState_moves

end State

open State

def Event.Keeps : Event → Prop
  | .requestBanner _ | .removed _ | .setAcknowledged _ _ | .setUrgency _ _ => False
  | _ => True

theorem before_moves {s : State} {e : Event} {r : Handled} (he : e.Keeps)
    (h : handle s e = some r) : Moves s r.before := by
  have hframe : ∀ t : State, t.env.notifications = s.env.notifications →
      t.notificationQueue = s.notificationQueue → t.current = s.current → Moves s t :=
    fun t henv hqueue hcur =>
      covers_moves.of_quiets (.frame (sameNotifications_of_env henv) hqueue hcur)
  cases e with
  | requestBanner | removed | setAcknowledged | setUrgency => exact he.elim
  | setForFeedback n b =>
    cases h
    exact covers_moves.of_quiets (modifyNotification_quiets s n
      (f := fun n => { n with forFeedback := b }) fun _ => ⟨rfl, rfl⟩)
  | setIsTransient n b =>
    cases h
    exact covers_moves.of_quiets (modifyNotification_quiets s n
      (f := fun n => { n with isTransient := b }) fun _ => ⟨rfl, rfl⟩)
  | statusChanged status =>
    cases h
    cases status <;> exact hframe _ rfl rfl rfl
  | setBannerBlocked b =>
    simp only [handle] at h
    split at h <;> cases h <;> exact hframe _ rfl rfl rfl
  | hoverChanged b underPointer =>
    cases h
    refine .trans (hframe (s.modifyEnv fun env => { env with hover := b }) rfl rfl rfl) ?_
    generalize s.modifyEnv (fun env => { env with hover := b }) = u
    have hreset := resetNotificationLeftTimeout_quiets u
    have hentered : ∀ t : State, t.env = u.resetNotificationLeftTimeout.env →
        t.notificationQueue = u.resetNotificationLeftTimeout.notificationQueue →
        t.banner = u.resetNotificationLeftTimeout.banner → Moves u t := fun t henv hqueue hb =>
      covers_moves.of_quiets (hreset.trans
        (.frame (sameNotifications_of_env (by rw [henv])) hqueue (by rw [current, current, hb])))
    unfold onNotificationHoverChanged
    split
    · exact .refl
    split
    · unfold onNotificationEntered
      split
      · exact hentered _ rfl rfl rfl
      split
      · exact hentered _ rfl rfl rfl
      · exact hentered _ rfl rfl rfl
    · exact covers_moves.of_quiets (.frame (sameNotifications_of_env rfl) rfl rfl)
  | notificationTimeout =>
    simp only [handle, onNotificationTimeout] at h
    split at h <;> cases h
    split
    · exact hframe _ rfl rfl rfl
    split <;> exact hframe _ rfl rfl rfl
  | notificationLeftTimeout =>
    simp only [handle, onNotificationLeftTimeout] at h
    split at h <;> cases h
    split <;> exact hframe _ rfl rfl rfl
  | userActiveWatch =>
    simp only [handle] at h
    split at h <;> cases h
    exact hframe _ rfl rfl rfl
  | hideMessage =>
    simp only [handle] at h
    split at h <;> cases h
    rw [onHideMessage, thenUpdate_before]
    exact covers_moves.bind (covers_moves.beginHide updateState_moves s) fun v =>
      covers_moves.of_quiets (hideStopped_quiets v)
  | showCompleted =>
    simp only [handle] at h
    split at h <;> cases h
    rw [thenUpdate_before]
    exact covers_moves.of_quiets (showCompleted_quiets s)
  | hideCompleted =>
    simp only [handle] at h
    split at h <;> cases h
    rw [thenUpdate_before]
    exact covers_moves.of_quiets (hideStopped_quiets s)
  | bannerUnexpanded | bannerTouched | expandActiveNotification =>
    cases h
    exact covers_moves.of_quiets (modifyBanner_quiets s fun _ => rfl)
  | _ =>
    cases h
    exact hframe _ rfl rfl rfl

theorem moves_of_step {s t : State} {e : Event} (he : e.Keeps) (h : step s e = some t) :
    Moves s t := by
  obtain ⟨r, hr, rfl⟩ := Option.map_eq_some_iff.mp h
  exact Handled.moves_result (before_moves he hr)

end MessageTray
