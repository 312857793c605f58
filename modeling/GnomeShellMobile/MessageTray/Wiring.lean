import GnomeShellMobile.MessageTray.Sources

/-!
# MessageTray — the sources that the tray listens to

What holds of the tray and its sources in every run: it listens to a source once or not at all, and a
source that it listens to has an enabled policy and was not destroyed (`Wired`, `Enabled`). What the
functions do to the queue is said here too, for the results on what may be in it.

* **`Wired`**: kept by every step.
* **`Requests`**: what a request for a banner comes to.
* **`Removed`**: what the removal of some notifications comes to.
-/

namespace MessageTray

namespace State

variable {s : State}

/-! ## The queue and the moves -/

theorem Moves.same {s t : State} (h : Moves s t) : SameNotifications s t := by
  induction h with
  | refl => exact sameNotifications_of_env rfl
  | tail _ hmove ih =>
    rcases hmove with hmove | hmove
    · exact ih.trans hmove.same
    · exact ih.trans hmove.same

theorem Moves.from_queue {s t : State} (h : Moves s t) :
    (∀ n ∈ t.notificationQueue, n ∈ s.notificationQueue) ∧
      ∀ n, t.current = some n → s.current = some n ∨ n ∈ s.notificationQueue := by
  induction h with
  | refl => exact ⟨fun _ => id, fun _ => .inl⟩
  | tail _ hmove ih =>
    rcases hmove with hmove | ⟨-, m, hqueue, hcur⟩
    · refine ⟨fun n hn => ih.1 n (hmove.queue.subset hn), fun n hn => ?_⟩
      rcases hmove.current with h | h
      · exact ih.2 n (h.symm.trans hn)
      · exact nomatch h.symm.trans hn
    · refine ⟨fun n hn => ih.1 n ?_, fun n hn => .inr (ih.1 n ?_)⟩
      · rw [hqueue]
        exact List.mem_cons_of_mem _ hn
      · obtain rfl := Option.some.inj (hcur.symm.trans hn)
        rw [hqueue]
        exact List.mem_cons_self

def Requests (n : NotificationId) (s t : State) : Prop :=
  Moves s t ∨ n ∉ s.notificationQueue ∧ s.current ≠ some n ∧ Moves (s.queueNotification n) t

theorem requestBanner_requests (s : State) (n : NotificationId) :
    Requests n s (s.onNotificationRequestBanner n).result := by
  by_cases hcur : s.current = some n
  · exact .inl (requestBanner_moves (.inl hcur))
  · rcases requestBanner_new hcur with h | ⟨hn, h⟩
    · exact .inl h
    · exact .inr ⟨hn, hcur, h⟩

theorem mem_queueNotification {n m : NotificationId} :
    m ∈ (s.queueNotification n).notificationQueue ↔ m ∈ s.notificationQueue ∨ m = n := by
  have hperm := List.perm_insertionSort (fun a b =>
    (s.notification b).urgency.toNat ≤ (s.notification a).urgency.toNat) (s.notificationQueue ++ [n])
  exact hperm.mem_iff.trans (by rw [List.mem_append, List.mem_singleton])

theorem Requests.same {n : NotificationId} {s t : State} (h : Requests n s t) :
    SameNotifications s t := by
  rcases h with h | ⟨-, -, h⟩
  · exact h.same
  · exact (sameNotifications_of_env (s := s) (t := s.queueNotification n) rfl).trans h.same

theorem Requests.from_queue {n : NotificationId} {s t : State} (h : Requests n s t) :
    (∀ m ∈ t.notificationQueue, m ∈ s.notificationQueue ∨ m = n) ∧
      ∀ m, t.current = some m → s.current = some m ∨ m ∈ s.notificationQueue ∨ m = n := by
  rcases h with h | ⟨-, -, h⟩
  · exact ⟨fun m hm => .inl (h.from_queue.1 m hm), fun m hm => (h.from_queue.2 m hm).imp_right .inl⟩
  · refine ⟨fun m hm => mem_queueNotification.mp (h.from_queue.1 m hm), fun m hm => ?_⟩
    exact (h.from_queue.2 m hm).imp_right mem_queueNotification.mp

theorem removed_not_mem (hs : s.Sound) (n : NotificationId) :
    n ∉ (s.onNotificationRemoved n).result.notificationQueue := by
  by_cases hcur : s.current = some n
  · exact fun hn => hs.notQueued n hcur ((removed_quiets s n).queue.subset hn)
  · have heq : s.onNotificationRemoved n =
        .done { s with notificationQueue := s.notificationQueue.erase n } := by
      rw [onNotificationRemoved, if_neg hcur]
    rw [heq]
    exact hs.nodup.not_mem_erase

theorem Sound.requestBanner_result (hs : s.Sound) (n : NotificationId) :
    (s.onNotificationRequestBanner n).result.Sound :=
  sound_step (e := .requestBanner n) hs rfl

theorem Sound.removed_result (hs : s.Sound) (n : NotificationId) :
    (s.onNotificationRemoved n).result.Sound :=
  sound_step (e := .removed n) hs rfl

theorem Sound.updateState_state (hs : s.Sound) : s.updateState.state.Sound :=
  hs.updateState_settled.sound

end State

open State

namespace World

variable {w : World} {src : SourceId}

/-! ## Wired worlds -/

variable (w)

structure Wired : Prop where
  sound : w.tray.Sound
  handlers : ∀ src, w.handlers src = if w.contains src then 1 else 0
  policyHandlers : ∀ src, w.contains src = true → 0 < w.policyHandlers src
  alive : ∀ src, w.contains src = true → w.destroyed src = false
  ofSource : ∀ src, ∀ n ∈ w.notifications src, w.source n = src

def Enabled : Prop := ∀ src, w.contains src = true → w.enable src = true

def Served : Prop := ∀ n ∈ w.tray.notificationQueue, w.contains (w.source n) = true

def Listed : Prop :=
  ∀ n ∈ w.tray.notificationQueue, n ∈ w.notifications (w.source n)

variable {w}

theorem source_of_same {w t : World} (h : SameNotifications w.tray t.tray) (n : NotificationId) :
    t.source n = w.source n := (h n).2

theorem Wired.withTray (h : w.Wired) {s : State} (hs : s.Sound)
    (hsource : ∀ n, (s.notification n).source = w.source n) : Wired { w with tray := s } where
  __ := h
  sound := hs
  ofSource src n hn := (hsource n).trans (h.ofSource src n hn)

theorem Wired.updateState (h : w.Wired) : w.updateState.Wired :=
  h.withTray h.sound.updateState_state fun n => ((updateState_moves w.tray).same n).2

theorem Wired.iterate_handlers (h : w.Wired) (src : SourceId) (f : State → State) (s : State) :
    w.contains src = false ∧ f^[w.handlers src] s = s ∨
      w.contains src = true ∧ f^[w.handlers src] s = f s := by
  cases hc : w.contains src with
  | false => exact .inl ⟨rfl, by rw [h.handlers src, hc]; rfl⟩
  | true => exact .inr ⟨rfl, by rw [h.handlers src, hc]; rfl⟩

/-! ## The policies -/

variable (w)

@[simp] theorem onSourceEnableChanged_tray (src : SourceId) :
    (w.onSourceEnableChanged src).tray = w.tray := by
  unfold onSourceEnableChanged
  split
  · rfl
  split <;> rfl

@[simp] theorem onSourceEnableChanged_enable (src : SourceId) :
    (w.onSourceEnableChanged src).enable = w.enable := by
  unfold onSourceEnableChanged
  split
  · rfl
  split <;> rfl

@[simp] theorem onSourceEnableChanged_policyHandlers (src : SourceId) :
    (w.onSourceEnableChanged src).policyHandlers = w.policyHandlers := by
  unfold onSourceEnableChanged
  split
  · rfl
  split <;> rfl

@[simp] theorem onSourceEnableChanged_destroyed (src : SourceId) :
    (w.onSourceEnableChanged src).destroyed = w.destroyed := by
  unfold onSourceEnableChanged
  split
  · rfl
  split <;> rfl

@[simp] theorem onSourceEnableChanged_notifications (src : SourceId) :
    (w.onSourceEnableChanged src).notifications = w.notifications := by
  unfold onSourceEnableChanged
  split
  · rfl
  split <;> rfl

@[simp] theorem onSourceEnableChanged_contains (src : SourceId) :
    (w.onSourceEnableChanged src).contains = Function.update w.contains src (w.enable src) := by
  unfold onSourceEnableChanged
  split
  · next h => rw [← h, Function.update_eq_self]
  · split
    · next h =>
      rw [h]
      rfl
    · next h =>
      rw [Bool.eq_false_of_not_eq_true h]
      rfl

variable {w}

theorem Wired.addSource (h : w.Wired) (hc : w.contains src = false)
    (hpolicy : 0 < w.policyHandlers src) (halive : w.destroyed src = false) :
    (w.addSource src).Wired := by
  refine ⟨h.sound, fun i => ?_, fun i hi => ?_, fun i hi => ?_, h.ofSource⟩
  · show Function.update w.handlers src _ i = if Function.update w.contains src true i then 1 else 0
    by_cases hi : i = src
    · rw [hi, Function.update_self, Function.update_self, h.handlers src, hc]
      rfl
    · rw [Function.update_of_ne hi, Function.update_of_ne hi]
      exact h.handlers i
  · by_cases heq : i = src
    · exact heq ▸ hpolicy
    · exact h.policyHandlers i ((Function.update_of_ne heq _ _).symm.trans hi)
  · by_cases heq : i = src
    · exact heq ▸ halive
    · exact h.alive i ((Function.update_of_ne heq _ _).symm.trans hi)

theorem Wired.removeSource (h : w.Wired) (src : SourceId) : (w.removeSource src).Wired := by
  have hmono : ∀ i, Function.update w.contains src false i = true → w.contains i = true := by
    intro i hi
    by_cases heq : i = src
    · rw [heq, Function.update_self] at hi
      cases hi
    · exact (Function.update_of_ne heq _ _).symm.trans hi
  refine ⟨h.sound, fun i => ?_, fun i hi => h.policyHandlers i (hmono i hi),
    fun i hi => h.alive i (hmono i hi), h.ofSource⟩
  show Function.update w.handlers src 0 i = if Function.update w.contains src false i then 1 else 0
  by_cases hi : i = src
  · rw [hi, Function.update_self, Function.update_self]
    rfl
  · rw [Function.update_of_ne hi, Function.update_of_ne hi]
    exact h.handlers i

theorem Wired.onSourceEnableChanged (h : w.Wired)
    (hpolicy : 0 < w.policyHandlers src) (halive : w.destroyed src = false) :
    (w.onSourceEnableChanged src).Wired := by
  unfold World.onSourceEnableChanged
  split
  · exact h
  · next hne =>
    split
    · next henable =>
      refine h.addSource (Bool.eq_false_of_not_eq_true fun hc => hne ?_) hpolicy halive
      rw [hc, henable]
    · exact h.removeSource src

theorem Wired.withEnable (h : w.Wired) (f : SourceId → Bool) : Wired { w with enable := f } :=
  ⟨h.sound, h.handlers, h.policyHandlers, h.alive, h.ofSource⟩

structure Notified (src : SourceId) (w t : World) : Prop where
  wired : t.Wired
  moves : Moves w.tray t.tray
  enable : t.enable = w.enable
  policyHandlers : t.policyHandlers = w.policyHandlers
  destroyed : t.destroyed = w.destroyed
  notifications : t.notifications = w.notifications
  others : ∀ i, i ≠ src → t.contains i = w.contains i

theorem Wired.notified (h : w.Wired) (src : SourceId) : Notified src w w :=
  ⟨h, .refl, rfl, rfl, rfl, rfl, fun _ _ => rfl⟩

theorem Notified.trans {w t u : World} (h1 : Notified src w t)
    (h2 : Notified src t u) : Notified src w u where
  wired := h2.wired
  moves := h1.moves.trans h2.moves
  enable := h2.enable.trans h1.enable
  policyHandlers := h2.policyHandlers.trans h1.policyHandlers
  destroyed := h2.destroyed.trans h1.destroyed
  notifications := h2.notifications.trans h1.notifications
  others i hi := (h2.others i hi).trans (h1.others i hi)

theorem Wired.updateState_notified (h : w.Wired) (src : SourceId) : Notified src w w.updateState :=
  ⟨h.updateState, updateState_moves _, rfl, rfl, rfl, rfl, fun _ _ => rfl⟩

theorem Wired.onSourceEnableChanged_notified (h : w.Wired)
    (hpolicy : 0 < w.policyHandlers src) (halive : w.destroyed src = false) :
    Notified src w (w.onSourceEnableChanged src) where
  wired := h.onSourceEnableChanged hpolicy halive
  moves := by rw [onSourceEnableChanged_tray]
  enable := onSourceEnableChanged_enable w src
  policyHandlers := onSourceEnableChanged_policyHandlers w src
  destroyed := onSourceEnableChanged_destroyed w src
  notifications := onSourceEnableChanged_notifications w src
  others i hi := by rw [onSourceEnableChanged_contains, Function.update_of_ne hi]

/-- Induction on the number of calls. -/
theorem Wired.notifyEnable_notified (h : w.Wired)
    (hpolicy : 0 < w.policyHandlers src) (halive : w.destroyed src = false) (k : Nat) :
    Notified src w ((notifyEnable src)^[k] w) := by
  induction k with
  | zero => exact h.notified src
  | succ k ih =>
    rw [Function.iterate_succ_apply']
    rw [← ih.policyHandlers] at hpolicy
    rw [← ih.destroyed] at halive
    have hchange := ih.wired.onSourceEnableChanged_notified hpolicy halive
    exact (ih.trans hchange).trans (hchange.wired.updateState_notified src)

/-- Induction on the number of calls. -/
theorem Wired.iterate_updateState_notified (h : w.Wired) (src : SourceId) (k : Nat) :
    Notified src w (World.updateState^[k] w) := by
  induction k with
  | zero => exact h.notified src
  | succ k ih =>
    rw [Function.iterate_succ_apply']
    exact ih.trans (ih.wired.updateState_notified src)

@[simp] theorem setPolicy_contains (w : World) (src : SourceId) (p : Policy) :
    (w.setPolicy src p).contains = w.contains := by
  have hiterate : ∀ k u, (World.updateState^[k] u).contains = u.contains := by
    intro k u
    induction k with
    | zero => rfl
    | succ k ih =>
      rw [Function.iterate_succ_apply']
      exact ih
  exact hiterate _ _

theorem notifyEnable_contains (src : SourceId) (k : Nat) :
    ((notifyEnable src)^[k + 1] w).contains src = w.enable src := by
  have henable : ∀ k, ((notifyEnable src)^[k] w).enable = w.enable := by
    intro k
    induction k with
    | zero => rfl
    | succ k ih =>
      rw [Function.iterate_succ_apply']
      exact (onSourceEnableChanged_enable _ src).trans ih
  rw [Function.iterate_succ_apply']
  show (World.onSourceEnableChanged _ src).contains src = _
  rw [onSourceEnableChanged_contains, Function.update_self, henable]

/-! ## Removals -/

structure Removed (l : List NotificationId) (w t : World) : Prop where
  wired : t.Wired
  quiets : Quiets w.tray t.tray
  enable : t.enable = w.enable
  contains : t.contains = w.contains
  destroyed : t.destroyed = w.destroyed
  kept : ∀ src, ∀ m ∈ w.notifications src, m ∉ l → m ∈ t.notifications src
  gone : ∀ n ∈ l, w.contains (w.source n) = true → n ∉ t.tray.notificationQueue

theorem Wired.removed_nil (h : w.Wired) : Removed [] w w :=
  ⟨h, Quiets.refl _, rfl, rfl, rfl, fun _ _ hm _ => hm, fun _ hn => nomatch hn⟩

theorem Removed.append {l l' : List NotificationId} {w t u : World} (h1 : Removed l w t)
    (h2 : Removed l' t u) : Removed (l ++ l') w u where
  wired := h2.wired
  quiets := h1.quiets.trans h2.quiets
  enable := h2.enable.trans h1.enable
  contains := h2.contains.trans h1.contains
  destroyed := h2.destroyed.trans h1.destroyed
  kept src m hm hnot := by
    rw [List.mem_append, not_or] at hnot
    exact h2.kept src m (h1.kept src m hm hnot.1) hnot.2
  gone n hn hc := by
    rcases List.mem_append.mp hn with hn | hn
    · exact fun hq => h1.gone n hn hc (h2.quiets.queue.subset hq)
    · refine h2.gone n hn ?_
      rw [h1.contains, source_of_same h1.quiets.same]
      exact hc

theorem Wired.removeNotification_removed (h : w.Wired) (n : NotificationId) :
    Removed [n] w (w.removeNotification n) := by
  have hkept : ∀ src, ∀ m ∈ w.notifications src, m ∉ [n] →
      m ∈ (w.removeNotification n).notifications src := by
    intro src m hm hne
    show m ∈ Function.update w.notifications (w.source n) _ src
    by_cases hsrc : src = w.source n
    · rw [hsrc, Function.update_self]
      exact (List.mem_erase_of_ne (List.ne_of_not_mem_cons hne)).mpr (hsrc ▸ hm)
    · rw [Function.update_of_ne hsrc]
      exact hm
  have hback : ∀ src, ∀ m ∈ (w.removeNotification n).notifications src,
      m ∈ w.notifications src := by
    intro src m hm
    replace hm : m ∈ Function.update w.notifications (w.source n) _ src := hm
    by_cases hsrc : src = w.source n
    · rw [hsrc, Function.update_self] at hm
      exact hsrc ▸ List.mem_of_mem_erase hm
    · rwa [Function.update_of_ne hsrc] at hm
  have hwired : ∀ s : State, s.Sound → Quiets w.tray s →
      (w.removeNotification n).tray = s → (w.removeNotification n).Wired := by
    rintro s hs hquiets rfl
    refine ⟨hs, h.handlers, h.policyHandlers, h.alive, fun src m hm => ?_⟩
    exact (hquiets.same m).2.trans (h.ofSource src m (hback src m hm))
  rcases h.iterate_handlers (w.source n) (fun s => (s.onNotificationRemoved n).result) w.tray with
    ⟨hc, heq⟩ | ⟨hc, heq⟩
  · -- the tray does not listen to the source
    have htray : (w.removeNotification n).tray = w.tray := heq
    have hquiets : Quiets w.tray (w.removeNotification n).tray := by
      rw [htray]
      exact Quiets.refl _
    refine ⟨hwired _ h.sound (Quiets.refl _) htray, hquiets, rfl, rfl, rfl, hkept, fun m hm hcm => ?_⟩
    rw [List.mem_singleton.mp hm, hc] at hcm
    cases hcm
  · have htray : (w.removeNotification n).tray = (w.tray.onNotificationRemoved n).result := heq
    have hquiets : Quiets w.tray (w.removeNotification n).tray := by
      rw [htray]
      exact removed_quiets w.tray n
    refine ⟨hwired _ (h.sound.removed_result n) (removed_quiets w.tray n) htray, hquiets, rfl, rfl, rfl,
      hkept, fun m hm _ => ?_⟩
    rw [htray, List.mem_singleton.mp hm]
    exact removed_not_mem h.sound n

/-- Induction on the list. -/
theorem Wired.foldl_removed (h : w.Wired) (l : List NotificationId) :
    Removed l w (l.foldl removeNotification w) := by
  induction l generalizing w with
  | nil => exact h.removed_nil
  | cons n l ih =>
    have hfirst := h.removeNotification_removed n
    exact hfirst.append (ih hfirst.wired)

theorem Removed.listed {l : List NotificationId} {w t : World} (h : Removed l w t)
    (hlisted : w.Listed)
    (hserved : ∀ n ∈ l, n ∈ w.tray.notificationQueue → w.contains (w.source n) = true) :
    t.Listed := by
  intro n hn
  have hq := h.quiets.queue.subset hn
  rw [source_of_same h.quiets.same]
  exact h.kept _ n (hlisted n hq) fun hl => h.gone n hl (hserved n hl hq) hn

theorem Removed.served {l : List NotificationId} {w t : World} (h : Removed l w t)
    (hserved : w.Served) : t.Served := by
  intro n hn
  rw [source_of_same h.quiets.same, h.contains]
  exact hserved n (h.quiets.queue.subset hn)

theorem Wired.emitDestroy (h : w.Wired) (src : SourceId) : (w.emitDestroy src).Wired := by
  have hmark : w.contains src = false →
      Wired { w with destroyed := Function.update w.destroyed src true } := by
    intro hc
    refine ⟨h.sound, h.handlers, h.policyHandlers, fun i hi => ?_, h.ofSource⟩
    have hne : i ≠ src := by
      rintro rfl
      exact nomatch hc.symm.trans hi
    exact (Function.update_of_ne hne _ _).trans (h.alive i hi)
  unfold World.emitDestroy
  split
  · next hzero =>
    refine hmark (Bool.eq_false_of_not_eq_true fun hc => ?_)
    rw [h.handlers src, hc] at hzero
    cases hzero
  · -- the source leaves the tray, whatever the order of the two
    have hleave := h.removeSource src
    refine ⟨h.sound, hleave.handlers, hleave.policyHandlers, fun i hi => ?_, h.ofSource⟩
    have hne : i ≠ src := by
      rintro rfl
      replace hi : Function.update w.contains i false i = true := hi
      rw [Function.update_self] at hi
      cases hi
    exact (Function.update_of_ne hne _ _).trans (hleave.alive i hi)

@[simp] theorem emitDestroy_tray (w : World) (src : SourceId) : (w.emitDestroy src).tray = w.tray := by
  unfold emitDestroy
  split <;> rfl

@[simp] theorem emitDestroy_enable (w : World) (src : SourceId) :
    (w.emitDestroy src).enable = w.enable := by
  unfold emitDestroy
  split <;> rfl

@[simp] theorem emitDestroy_notifications (w : World) (src : SourceId) :
    (w.emitDestroy src).notifications = w.notifications := by
  unfold emitDestroy
  split <;> rfl

theorem Wired.emitDestroy_contains (h : w.Wired) (src : SourceId) :
    (w.emitDestroy src).contains = Function.update w.contains src false := by
  unfold World.emitDestroy
  split
  · next hzero =>
    have hc : w.contains src = false := by
      refine Bool.eq_false_of_not_eq_true fun hc => ?_
      rw [h.handlers src, hc] at hzero
      cases hzero
    exact (Function.update_eq_self_iff.mpr hc.symm).symm
  · rfl

/-- The notifications that the loop of `addNotification` destroys. -/
def oldest (l : List NotificationId) : List NotificationId :=
  l.take (l.length + 1 - maxNotificationsPerSource)

/-- The loop leaves notifications in the source, so it does not destroy it. Induction on the
notifications. -/
theorem Wired.destroyOldest_eq (h : w.Wired) {l : List NotificationId}
    (hl : w.notifications src = l) : destroyOldest l w = (oldest l).foldl removeNotification w := by
  induction l generalizing w with
  | nil => rfl
  | cons n l ih =>
    unfold destroyOldest oldest
    split
    · next hmany =>
      have hsource : w.source n = src := h.ofSource src n (by rw [hl]; exact List.mem_cons_self)
      have hrest : (w.removeNotification n).notifications src = l := by
        show Function.update w.notifications (w.source n) _ src = l
        rw [hsource, Function.update_self, hl, List.erase_cons_head]
      have hstays : w.onNotificationDestroy n false = w.removeNotification n := by
        unfold World.onNotificationDestroy
        rw [hsource, hrest]
        refine if_neg fun hempty => ?_
        rw [hempty.1] at hmany
        exact absurd hmany (by decide)
      have htake : (n :: l).length + 1 - maxNotificationsPerSource =
          (l.length + 1 - maxNotificationsPerSource) + 1 := by
        rw [List.length_cons]
        omega
      rw [hstays, htake, List.take_succ_cons, List.foldl_cons]
      exact ih (h.removeNotification_removed n).wired hrest
    · next hfew =>
      have htake : (n :: l).length + 1 - maxNotificationsPerSource = 0 := by
        rw [List.length_cons]
        omega
      rw [htake, List.take_zero, List.foldl_nil]

/-! ## Steps -/

section

variable (h : w.Wired)
include h

theorem Wired.add (halive : w.destroyed src = false) : (w.add src).Wired := by
  unfold World.add
  split
  · exact h
  · refine Wired.onSourceEnableChanged (w := { w with policyHandlers := _ }) ?_ ?_ halive
    · refine ⟨h.sound, h.handlers, fun i hi => ?_, h.alive, h.ofSource⟩
      show 0 < Function.update w.policyHandlers src _ i
      by_cases heq : i = src
      · rw [heq, Function.update_self]
        omega
      · rw [Function.update_of_ne heq]
        exact h.policyHandlers i hi
    · show 0 < Function.update w.policyHandlers src _ src
      rw [Function.update_self]
      omega

theorem Wired.not_contains
    (hzero : w.policyHandlers src = 0) : w.contains src = false := by
  refine Bool.eq_false_of_not_eq_true fun hc => ?_
  have hpos := h.policyHandlers src hc
  omega

theorem Wired.setEnable_notified (b : Bool) (halive : w.destroyed src = false) :
    Notified src { w with enable := Function.update w.enable src b } (w.setEnable src b) := by
  unfold World.setEnable
  have hset := h.withEnable (Function.update w.enable src b)
  rcases Nat.eq_zero_or_pos (w.policyHandlers src) with hzero | hpos
  · rw [hzero]
    exact hset.notified src
  · exact hset.notifyEnable_notified hpos halive _

theorem Wired.withPolicies (f : Environment → Environment)
    (hf : (f w.tray.env).notifications = w.tray.env.notifications) :
    Wired { w with tray := w.tray.modifyEnv f } :=
  h.withTray (h.sound.modifyEnv f) fun n => (sameNotifications_of_env hf n).2

theorem Wired.setPolicy_notified (src : SourceId) (p : Policy) :
    Notified src w (w.setPolicy src p) := by
  have hset := h.withPolicies
    (fun env => { env with policies := Function.update env.policies src p }) rfl
  have hfirst : Notified src w { w with tray := w.tray.modifyEnv fun env =>
      { env with policies := Function.update env.policies src p } } :=
    ⟨hset, covers_moves.of_quiets (.frame (sameNotifications_of_env rfl) rfl rfl), rfl, rfl, rfl, rfl,
      fun _ _ => rfl⟩
  exact hfirst.trans (hset.iterate_updateState_notified src _)

variable (n : NotificationId)

theorem Wired.requestBanner_tray :
    w.contains (w.source n) = false ∧ (w.requestBanner n).tray = w.tray ∨
      w.contains (w.source n) = true ∧ Requests n w.tray (w.requestBanner n).tray := by
  rcases h.iterate_handlers (w.source n) (fun s => (s.onNotificationRequestBanner n).result)
    w.tray with ⟨hc, heq⟩ | ⟨hc, heq⟩
  · exact .inl ⟨hc, heq⟩
  · refine .inr ⟨hc, ?_⟩
    show Requests n w.tray ((fun s => (s.onNotificationRequestBanner n).result)^[_] w.tray)
    rw [heq]
    exact requestBanner_requests w.tray n

theorem Wired.requestBanner_same :
    SameNotifications w.tray (w.requestBanner n).tray := by
  rcases h.requestBanner_tray n with ⟨-, heq⟩ | ⟨-, hreq⟩
  · rw [heq]
    exact sameNotifications_of_env rfl
  · exact hreq.same

theorem Wired.requestBanner : (w.requestBanner n).Wired := by
  refine h.withTray ?_ fun m => (h.requestBanner_same n m).2
  rcases h.iterate_handlers (w.source n) (fun s => (s.onNotificationRequestBanner n).result)
    w.tray with ⟨-, heq⟩ | ⟨-, heq⟩
  · rw [heq]
    exact h.sound
  · rw [heq]
    exact h.sound.requestBanner_result n

theorem Wired.pushNotification :
    (w.pushNotification n).Wired := by
  refine ⟨h.sound, h.handlers, h.policyHandlers, h.alive, fun src m hm => ?_⟩
  replace hm : m ∈ Function.update w.notifications (w.source n) _ src := hm
  by_cases hsrc : src = w.source n
  · rw [hsrc, Function.update_self] at hm
    rcases List.mem_append.mp hm with hm | hm
    · exact (h.ofSource _ m hm).trans hsrc.symm
    · rw [List.mem_singleton.mp hm, hsrc]
      rfl
  · rw [Function.update_of_ne hsrc] at hm
    exact h.ofSource src m hm

end

theorem mem_pushNotification {n m : NotificationId}
    (h : m ∈ w.notifications src) : m ∈ (w.pushNotification n).notifications src := by
  show m ∈ Function.update w.notifications (w.source n) _ src
  by_cases hsrc : src = w.source n
  · rw [hsrc, Function.update_self]
    exact List.mem_append_left _ (hsrc ▸ h)
  · rw [Function.update_of_ne hsrc]
    exact h

theorem self_mem_pushNotification (w : World) (n : NotificationId) :
    n ∈ (w.pushNotification n).notifications (w.source n) := by
  show n ∈ Function.update w.notifications (w.source n) _ (w.source n)
  rw [Function.update_self]
  exact List.mem_append_right _ List.mem_cons_self

theorem Wired.destroyOldest_removed (h : w.Wired) (src : SourceId) :
    Removed (oldest (w.notifications src)) w (destroyOldest (w.notifications src) w) := by
  rw [h.destroyOldest_eq rfl]
  exact h.foldl_removed _

theorem acknowledge_quiets (w : World) (n : NotificationId) (b : Bool) :
    Quiets w.tray (w.acknowledge n b).tray :=
  modifyNotification_quiets w.tray n (f := fun n => { n with acknowledged := b })
    fun _ => ⟨rfl, rfl⟩

theorem Wired.acknowledge (h : w.Wired) (n : NotificationId) (b : Bool) :
    (w.acknowledge n b).Wired :=
  h.withTray (h.sound.modifyNotification n _) fun m => ((acknowledge_quiets w n b).same m).2

theorem onNotificationDestroy_eq (w : World) (n : NotificationId) (pending : Bool) :
    w.onNotificationDestroy n pending = w.removeNotification n ∨
      (w.removeNotification n).notifications (w.source n) = [] ∧
        w.onNotificationDestroy n pending = (w.removeNotification n).emitDestroy (w.source n) := by
  unfold World.onNotificationDestroy
  split
  · next hempty =>
    refine .inr ⟨hempty.1, ?_⟩
    rw [destroySource, hempty.1]
    rfl
  · exact .inl rfl

theorem tray_step {s t : State} {e : Event} (he : e.ofSource = false)
    (h : MessageTray.step s e = some t) :
    Moves s t ∨ t.notificationQueue = s.notificationQueue ∧ t.current = s.current ∧
      ∃ n u, e = .setUrgency n u ∧ t = s.modifyNotification n fun n => { n with urgency := u } := by
  cases e with
  | setUrgency n u =>
    cases h
    exact .inr ⟨rfl, rfl, n, u, rfl, rfl⟩
  | requestBanner | removed | setAcknowledged | policyNotify => cases he
  | _ =>
    refine .inl (moves_of_step ?_ h)
    trivial

theorem tray_step_source {s t : State} {e : Event} (he : e.ofSource = false)
    (h : MessageTray.step s e = some t) (m : NotificationId) :
    (t.notification m).source = (s.notification m).source := by
  rcases tray_step he h with hmoves | ⟨-, -, n, u, -, rfl⟩
  · exact (hmoves.same m).2
  · show (if m = n then _ else _ : Notification).source = _
    split <;> rfl

theorem Wired.step {w t : World} {e : WorldEvent} (h : w.Wired) (hstep : w.step e = some t) :
    t.Wired := by
  cases e with
  | add src =>
    simp only [World.step] at hstep
    split at hstep
    · cases hstep
    · next halive =>
      cases hstep
      exact h.add (Bool.eq_false_of_not_eq_true halive)
  | setEnable src b =>
    simp only [World.step] at hstep
    split at hstep
    · cases hstep
    · next halive =>
      cases hstep
      exact (h.setEnable_notified b (Bool.eq_false_of_not_eq_true halive)).wired
  | setPolicy src p =>
    simp only [World.step] at hstep
    split at hstep <;> cases hstep
    exact (h.setPolicy_notified src p).wired
  | addNotification n =>
    simp only [World.step] at hstep
    split at hstep <;> cases hstep
    unfold World.addNotification
    split
    · exact h
    · exact ((h.destroyOldest_removed _).wired.pushNotification n).requestBanner n
  | destroyNotification n pending =>
    simp only [World.step] at hstep
    split at hstep <;> cases hstep
    have hremoved := (h.removeNotification_removed n).wired
    rcases onNotificationDestroy_eq w n pending with heq | ⟨-, heq⟩
    · exact heq ▸ hremoved
    · exact heq ▸ hremoved.emitDestroy _
  | destroySource src =>
    simp only [World.step] at hstep
    split at hstep <;> cases hstep
    exact (h.foldl_removed _).wired.emitDestroy src
  | requestBanner n =>
    simp only [World.step] at hstep
    split at hstep <;> cases hstep
    exact h.requestBanner n
  | setAcknowledged n b =>
    cases hstep
    unfold World.setAcknowledged
    split
    · exact h
    split
    · exact (h.acknowledge n b).requestBanner n
    · exact h.acknowledge n b
  | tray e =>
    simp only [World.step] at hstep
    split at hstep
    · cases hstep
    · next he =>
      obtain ⟨s, hs, rfl⟩ := Option.map_eq_some_iff.mp hstep
      exact h.withTray (sound_step h.sound hs)
        (tray_step_source (Bool.eq_false_of_not_eq_true he) hs)

theorem wired_new (env : Environment) (enable : SourceId → Bool) : (new env enable).Wired :=
  ⟨sound_new env, fun _ => rfl, fun _ h => (nomatch h), fun _ h => (nomatch h), fun _ _ h => nomatch h⟩

end World

end MessageTray
