import GnomeShellMobile.MessageTray.Wiring

/-!
# MessageTray — the notifications of a source that is disabled

A source that is destroyed takes its notifications out of the queue one by one. A source whose policy
is disabled only leaves the tray: what it had queued stays in the queue and is shown. So the queue is
clean all along a run whose steps disable no source with a notification in the queue.

* **`Emptied`**: the condition.
* **`Clean`**: the invariant, of which **`held_step`** is the step.
* **`serves_run`**: the runs.
-/

namespace MessageTray

namespace State

/-- The state that `_updateState` looks at, with the acknowledged notifications filtered out if it goes
past its first checks. -/
def looked (s : State) : State := if s.Open then s.entered else s

theorem looked_quiets (s : State) : Quiets s s.looked := by
  unfold looked
  split
  · exact s.entered_quiets
  · exact Quiets.refl s

theorem looked_moves (s : State) : Moves s.looked s.updateState.state := by
  unfold looked
  split
  · next h => exact entered_moves h
  · next h =>
    rw [updateState_closed h]
    exact .refl

end State

open State

namespace World

variable {w : World}

/-! ## What a step leaves -/

/-- What a step from `w` to `t` leaves in the queue and on the screen, with the handlers that it
leaves. -/
structure Serves (w t : World) : Prop where
  /-- no handler is connected twice -/
  handlers : ∀ src, t.handlers src = if t.contains src then 1 else 0
  enabled : t.Enabled
  alive : ∀ src, t.contains src = true → t.destroyed src = false
  queued : t.Served
  shown : ∀ n, t.tray.current = some n → w.tray.current ≠ some n → t.contains (t.source n) = true
  nodup : t.tray.notificationQueue.Nodup
  notQueued : ∀ n ∈ t.tray.current, n ∉ t.tray.notificationQueue

/-- No source is disabled while `_updateState` would find a notification of it in the queue. -/
def Emptied (w : World) : WorldEvent → Prop
  | .setEnable src b =>
    b = false → w.contains src = true →
      ∀ n ∈ w.tray.looked.notificationQueue, w.source n ≠ src
  | _ => True

instance (w : World) (e : WorldEvent) : Decidable (w.Emptied e) := by
  unfold Emptied
  split <;> infer_instance

structure Clean (w : World) : Prop where
  wired : w.Wired
  enabled : w.Enabled
  served : w.Served
  listed : w.Listed

structure Held (w t : World) : Prop where
  enabled : t.Enabled
  served : t.Served
  listed : t.Listed
  shown : ∀ n, t.tray.current = some n → w.tray.current ≠ some n → t.contains (t.source n) = true

theorem Held.clean {w t : World} (h : Held w t) (ht : t.Wired) : t.Clean :=
  ⟨ht, h.enabled, h.served, h.listed⟩

theorem Held.serves {w t : World} (h : Held w t) (ht : t.Wired) : Serves w t :=
  ⟨ht.handlers, h.enabled, ht.alive, h.served, h.shown, ht.sound.nodup, ht.sound.notQueued⟩

theorem Held.refl (h : w.Clean) : Held w w :=
  ⟨h.enabled, h.served, h.listed, fun _ hcur hnot => absurd hcur hnot⟩

theorem Held.of_quiets {w u t : World} (hquiets : Quiets w.tray u.tray) (h : Held u t) :
    Held w t := by
  refine ⟨h.enabled, h.served, h.listed, fun n hcur hnot => h.shown n hcur fun hu => hnot ?_⟩
  rcases hquiets.current with heq | heq
  · exact heq.symm.trans hu
  · exact nomatch heq.symm.trans hu

theorem Clean.held_of_moves {w t : World} {v : State} (hw : w.Clean) (henabled : t.Enabled)
    (hquiets : Quiets w.tray v) (hmoves : Moves v t.tray)
    (hnotifications : t.notifications = w.notifications)
    (hserved : ∀ n ∈ v.notificationQueue, t.contains (w.source n) = true) : Held w t := by
  have hsource : ∀ n, t.source n = w.source n :=
    source_of_same (hquiets.same.trans hmoves.same)
  refine ⟨henabled, fun n hn => ?_, fun n hn => ?_, fun n hcur hnot => ?_⟩
  · rw [hsource]
    exact hserved n (hmoves.from_queue.1 n hn)
  · rw [hsource, hnotifications]
    exact hw.listed n (hquiets.queue.subset (hmoves.from_queue.1 n hn))
  · rw [hsource]
    rcases hmoves.from_queue.2 n hcur with hv | hv
    · rcases hquiets.current with heq | heq
      · exact absurd (heq.symm.trans hv) hnot
      · exact nomatch heq.symm.trans hv
    · exact hserved n hv

theorem Clean.held_of_contains {w t : World} (hw : w.Clean) (henable : t.enable = w.enable)
    (hcontains : t.contains = w.contains) (hmoves : Moves w.tray t.tray)
    (hnotifications : t.notifications = w.notifications) : Held w t := by
  refine hw.held_of_moves (fun src hsrc => ?_) (Quiets.refl _) hmoves hnotifications fun n hn => ?_
  · rw [hcontains] at hsrc
    rw [henable]
    exact hw.enabled src hsrc
  · rw [hcontains]
    exact hw.served n hn

/-! ## The events -/

theorem Clean.add (hw : w.Clean) (src : SourceId) : Held w (w.add src) := by
  unfold World.add
  split
  · exact .refl hw
  · next hnot =>
    generalize hu : { w with
      policyHandlers := Function.update w.policyHandlers src (w.policyHandlers src + 1) } = u
    have htray : u.tray = w.tray := hu ▸ rfl
    have hcontains : u.contains = w.contains := hu ▸ rfl
    have henable : u.enable = w.enable := hu ▸ rfl
    have hnotifications : u.notifications = w.notifications := hu ▸ rfl
    refine hw.held_of_moves (fun i hi => ?_) (Quiets.refl _) ?_ ?_ fun n hn => ?_
    · rw [onSourceEnableChanged_contains, hcontains, henable] at hi
      rw [onSourceEnableChanged_enable, henable]
      by_cases heq : i = src
      · rw [heq, Function.update_self] at hi
        exact heq ▸ hi
      · rw [Function.update_of_ne heq] at hi
        exact hw.enabled i hi
    · rw [onSourceEnableChanged_tray, htray]
    · rw [onSourceEnableChanged_notifications, hnotifications]
    · have hin := hw.served n hn
      have hne : w.source n ≠ src := fun heq => hnot (heq ▸ hin)
      rw [onSourceEnableChanged_contains, Function.update_of_ne hne, hcontains]
      exact hin

theorem Clean.setEnable (hw : w.Clean) {src : SourceId} {b : Bool}
    (halive : w.destroyed src = false) (hok : w.Emptied (.setEnable src b)) :
    Held w (w.setEnable src b) := by
  have hnotified := hw.wired.setEnable_notified b halive
  cases hk : w.policyHandlers src with
  | zero =>
    have hnot := hw.wired.not_contains hk
    have heq : w.setEnable src b = { w with enable := Function.update w.enable src b } := by
      rw [World.setEnable, hk]
      rfl
    rw [heq]
    refine hw.held_of_moves (fun i hi => ?_) (Quiets.refl _) .refl rfl hw.served
    have hne : i ≠ src := by
      rintro rfl
      exact nomatch hnot.symm.trans hi
    exact (Function.update_of_ne hne _ _).trans (hw.enabled i hi)
  | succ k =>
    have hself : (w.setEnable src b).contains src = b := by
      rw [World.setEnable, hk, notifyEnable_contains]
      exact Function.update_self _ _ _
    have hfrom : Moves w.tray.looked (w.setEnable src b).tray := by
      have hset := hw.wired.withEnable (Function.update w.enable src b)
      generalize hu : { w with enable := Function.update w.enable src b } = u at hset
      have hpolicy : 0 < u.policyHandlers src := by
        rw [← hu]
        show 0 < w.policyHandlers src
        omega
      have hdestroyed : u.destroyed src = false := hu ▸ halive
      have hfirst := hset.notifyEnable_notified hpolicy hdestroyed 1
      rw [← hfirst.policyHandlers] at hpolicy
      rw [← hfirst.destroyed] at hdestroyed
      have hlater := hfirst.wired.notifyEnable_notified hpolicy hdestroyed k
      have htray : ((notifyEnable src)^[1] u).tray = w.tray.updateState.state := by
        show (u.onSourceEnableChanged src).tray.updateState.state = _
        rw [onSourceEnableChanged_tray, ← hu]
      have hlook := w.tray.looked_moves
      rw [World.setEnable, hk, hu, Function.iterate_add_apply]
      exact (htray ▸ hlook).trans hlater.moves
    refine hw.held_of_moves (fun i hi => ?_) w.tray.looked_quiets hfrom hnotified.notifications
      fun n hn => ?_
    · rw [hnotified.enable]
      by_cases heq : i = src
      · rw [heq] at hi ⊢
        exact (Function.update_self _ _ _).trans (hself.symm.trans hi)
      · rw [hnotified.others i heq] at hi
        exact (Function.update_of_ne heq _ _).trans (hw.enabled i hi)
    · have hin := hw.served n (w.tray.looked_quiets.queue.subset hn)
      by_cases heq : w.source n = src
      · cases b with
        | true => exact heq ▸ hself
        | false => exact absurd heq (hok rfl (heq ▸ hin) n hn)
      · rw [hnotified.others _ heq]
        exact hin

theorem Clean.requestBanner (hw : w.Clean) {n : NotificationId}
    (hn : n ∈ w.notifications (w.source n)) : Held w (w.requestBanner n) := by
  rcases hw.wired.requestBanner_tray n with ⟨-, heq⟩ | ⟨hc, hreq⟩
  · refine hw.held_of_contains rfl rfl ?_ rfl
    rw [heq]
  · have hsource : ∀ m, (w.requestBanner n).source m = w.source m := source_of_same hreq.same
    refine ⟨hw.enabled, fun m hm => ?_, fun m hm => ?_, fun m hcur hnot => ?_⟩
    · rw [hsource]
      rcases hreq.from_queue.1 m hm with hq | rfl
      · exact hw.served m hq
      · exact hc
    · rw [hsource]
      rcases hreq.from_queue.1 m hm with hq | rfl
      · exact hw.listed m hq
      · exact hn
    · rw [hsource]
      rcases hreq.from_queue.2 m hcur with h | hq | rfl
      · exact absurd h hnot
      · exact hw.served m hq
      · exact hc

theorem Clean.held_of_removed {w t : World} {l : List NotificationId} (hw : w.Clean)
    (h : Removed l w t) : Held w t := by
  refine ⟨fun src hsrc => ?_, h.served hw.served, ?_, fun n hcur hnot => ?_⟩
  · rw [h.contains] at hsrc
    rw [h.enable]
    exact hw.enabled src hsrc
  · exact h.listed hw.listed fun n _ hn => hw.served n hn
  · rcases h.quiets.current with heq | heq
    · exact absurd (heq.symm.trans hcur) hnot
    · exact nomatch heq.symm.trans hcur

section

variable (hw : w.Clean)
include hw

theorem Clean.emitDestroy {src : SourceId}
    (hnone : ∀ n ∈ w.tray.notificationQueue, w.source n ≠ src) : Held w (w.emitDestroy src) := by
  have hcontains := hw.wired.emitDestroy_contains src
  refine hw.held_of_moves (fun i hi => ?_) (Quiets.refl _) ?_ (emitDestroy_notifications w src)
    fun n hn => ?_
  · rw [hcontains] at hi
    rw [emitDestroy_enable]
    have hne : i ≠ src := by
      rintro rfl
      rw [Function.update_self] at hi
      cases hi
    rw [Function.update_of_ne hne] at hi
    exact hw.enabled i hi
  · rw [emitDestroy_tray]
  · rw [hcontains, Function.update_of_ne (hnone n hn)]
    exact hw.served n hn

theorem Clean.destroySource (src : SourceId) : Held w (w.destroySource src) := by
  have hremoved := hw.wired.foldl_removed (w.notifications src)
  have hclean := (hw.held_of_removed hremoved).clean hremoved.wired
  refine (hclean.emitDestroy fun n hn hsrc => ?_).of_quiets hremoved.quiets
  -- what is in the queue is among the notifications that were removed
  rw [source_of_same hremoved.quiets.same] at hsrc
  have hq := hremoved.quiets.queue.subset hn
  exact hremoved.gone n (hsrc ▸ hw.listed n hq) (hw.served n hq) hn

variable (n : NotificationId)

theorem Clean.onNotificationDestroy
    (pending : Bool) : Held w (w.onNotificationDestroy n pending) := by
  have hremoved := hw.wired.removeNotification_removed n
  have hheld := hw.held_of_removed hremoved
  rcases onNotificationDestroy_eq w n pending with heq | ⟨hempty, heq⟩
  · exact heq ▸ hheld
  · rw [heq]
    have hclean := hheld.clean hremoved.wired
    refine (hclean.emitDestroy fun m hm hsrc => ?_).of_quiets hremoved.quiets
    have hlisted := hclean.listed m hm
    rw [hsrc, hempty] at hlisted
    cases hlisted

theorem Clean.addNotification :
    Held w (w.addNotification n) := by
  unfold World.addNotification
  split
  · exact .refl hw
  · have hremoved := hw.wired.destroyOldest_removed (w.source n)
    have hclean := (hw.held_of_removed hremoved).clean hremoved.wired
    generalize destroyOldest (w.notifications (w.source n)) w = u at hremoved hclean
    have hpushed : (u.pushNotification n).Clean :=
      ⟨hclean.wired.pushNotification n, hclean.enabled, hclean.served,
        fun m hm => mem_pushNotification (hclean.listed m hm)⟩
    have hquiets : Quiets w.tray (u.pushNotification n).tray := hremoved.quiets
    have hin : n ∈ (u.pushNotification n).notifications ((u.pushNotification n).source n) :=
      self_mem_pushNotification u n
    exact (hpushed.requestBanner hin).of_quiets hquiets

theorem Clean.setAcknowledged (b : Bool) :
    Held w (w.setAcknowledged n b) := by
  unfold World.setAcknowledged
  have hquiets := acknowledge_quiets w n b
  have hack : Held w (w.acknowledge n b) :=
    hw.held_of_contains rfl rfl (covers_moves.of_quiets hquiets) rfl
  split
  · exact .refl hw
  split
  · next h =>
    refine ((hack.clean (hw.wired.acknowledge n b)).requestBanner ?_).of_quiets hquiets
    rw [source_of_same hquiets.same]
    exact h.2
  · exact hack

theorem Clean.tray {e : Event} {s : State} (he : e.ofSource = false)
    (hs : MessageTray.step w.tray e = some s) : Held w { w with tray := s } := by
  rcases tray_step he hs with hmoves | ⟨hqueue, hcur, -⟩
  · exact hw.held_of_contains rfl rfl hmoves rfl
  · have hsource := tray_step_source he hs
    refine ⟨hw.enabled, fun n hn => ?_, fun n hn => ?_, fun n h hnot => ?_⟩
    · show w.contains (s.notification n).source = true
      rw [hsource]
      exact hw.served n (hqueue ▸ hn)
    · show n ∈ w.notifications (s.notification n).source
      rw [hsource]
      exact hw.listed n (hqueue ▸ hn)
    · exact absurd (hcur.symm.trans h) hnot

end

theorem Clean.held_step {w t : World} {e : WorldEvent} (hw : w.Clean) (hok : w.Emptied e)
    (hstep : w.step e = some t) : Held w t := by
  cases e with
  | add src =>
    simp only [World.step] at hstep
    split at hstep <;> cases hstep
    exact hw.add src
  | setEnable src b =>
    simp only [World.step] at hstep
    split at hstep
    · cases hstep
    · next halive =>
      cases hstep
      exact hw.setEnable (Bool.eq_false_of_not_eq_true halive) hok
  | setPolicy src p =>
    simp only [World.step] at hstep
    split at hstep <;> cases hstep
    have hnotified := hw.wired.setPolicy_notified src p
    exact hw.held_of_contains hnotified.enable (setPolicy_contains w src p) hnotified.moves
      hnotified.notifications
  | addNotification n =>
    simp only [World.step] at hstep
    split at hstep <;> cases hstep
    exact hw.addNotification n
  | destroyNotification n pending =>
    simp only [World.step] at hstep
    split at hstep <;> cases hstep
    exact hw.onNotificationDestroy n pending
  | destroySource src =>
    simp only [World.step] at hstep
    split at hstep <;> cases hstep
    exact hw.destroySource src
  | requestBanner n =>
    simp only [World.step] at hstep
    split at hstep
    · next hn =>
      cases hstep
      exact hw.requestBanner hn
    · cases hstep
  | setAcknowledged n b =>
    cases hstep
    exact hw.setAcknowledged n b
  | tray e =>
    simp only [World.step] at hstep
    split at hstep
    · cases hstep
    · next he =>
      obtain ⟨s, hs, rfl⟩ := Option.map_eq_some_iff.mp hstep
      exact hw.tray (Bool.eq_false_of_not_eq_true he) hs

theorem clean_new (env : Environment) (enable : SourceId → Bool) : (new env enable).Clean :=
  ⟨wired_new env enable, fun _ h => (nomatch h), fun _ h => (nomatch h), fun _ h => nomatch h⟩

/-- **Disabled sources.** Whatever the session and the policies are at the start, in a run that disables
no source with a notification in the queue, each step leaves in the queue, and newly shows, only
notifications of sources that the tray listens to, once, that are enabled and were not destroyed. -/
theorem serves_run (env : Environment) (enable : SourceId → Bool) (es : List WorldEvent)
    (h : Runs.Allowed step Emptied (new env enable) es) :
    Runs.Along step (fun w _ t => Serves w t) (new env enable) es := by
  refine Runs.Allowed.along (clean_new env enable) (fun w e t hw hok hstep => ?_) h
  have hheld := hw.held_step hok hstep
  have hwired := hw.wired.step hstep
  exact ⟨hheld.serves hwired, hheld.clean hwired⟩

/-- A source with a banner is disabled and enabled again, and asks for the next one. -/
theorem serves_run_reenabled : Runs.Along step (fun w _ t => Serves w t) (new atWork fun _ => true)
      [.add 0, .addNotification 0, .setEnable 0 false, .setEnable 0 true, .addNotification 1] :=
  serves_run _ _ _ (by decide)

/-- A source is disabled while one of its notifications waits for the banner of another. The
notification stays in the queue. -/
theorem not_serves_disabled :
    ¬ ∀ env enable es, Runs.Along step (fun w _ t => Serves w t) (new env enable) es := by
  intro h
  have hrun := h atWork (fun _ => true)
    [.add 0, .addNotification 0, .addNotification 1, .setEnable 0 false]
  obtain ⟨-, hrun⟩ := hrun _ rfl
  obtain ⟨-, hrun⟩ := hrun _ rfl
  obtain ⟨-, hrun⟩ := hrun _ rfl
  obtain ⟨hserves, -⟩ := hrun _ rfl
  have hqueued := hserves.queued 1 (by decide)
  revert hqueued
  decide

end World

end MessageTray
