import GnomeShellMobile.NotificationDaemon.Fdo

/-!
# NotificationDaemon — the ids of the freedesktop notifications

* `Inv`: the invariant, but for the notification of one call that is not finished.
* `Inv.release` and what is made of it: how notifications and sources are destroyed.
* `Inv.fill`, `Inv.notifyAsync`: how they are made and replaced.
* `run_registered_iff`: the ids are right all along a run exactly when no call fails in the middle.
-/

namespace NotificationDaemon.Fdo

variable {s t : State} {n id src : ℕ}

/-- What holds in every state. The notification `open?` is registered and waits for its source. -/
structure Inv (s : State) (open? : Option ℕ) : Prop where
  registered : ∀ n, n ∈ s.notifications ↔ s.Listed n ∨ open? = some n
  opened : ∀ n, open? = some n → ¬ s.Listed n ∧ (s.notification n).source < s.created
  notifications : s.notifications.Nodup
  lists : ∀ src, (s.source src).notifications.Nodup
  sources : ∀ src, ∀ n ∈ (s.source src).notifications, (s.notification n).source = src
  created : ∀ src, s.created ≤ src → (s.source src).notifications = []
  known : ∀ app src, s.sourcesForApp app = some src → src < s.created
  knownByName : ∀ key src, s.sourceForPidAndName key = some src → src < s.created
  given : s.given.Nodup
  next : ∀ id ∈ s.given, id < s.nextNotificationId ∧ id ≠ 0
  positive : s.nextNotificationId ≠ 0
  notificationsGiven : ∀ n ∈ s.notifications, n ∈ s.given
  returnedGiven : ∀ id ∈ s.returned, id ∈ s.given
  fresh : ∀ id, id ∉ s.given → s.closed id = 0
  live : ∀ id ∈ s.notifications, s.closed id = 0
  gone : ∀ id ∈ s.returned, id ∉ s.notifications → s.closed id = 1

/-! ## The end of a notification -/

section Release

variable {open? : Option ℕ} {reason : DestroyedReason}

@[simp] theorem setSource_self (s : State) (src : ℕ) (source : Source) :
    (s.setSource src source).source src = source := Function.update_self ..

theorem setSource_other (s : State) {src src' : ℕ} (source : Source) (h : src' ≠ src) :
    (s.setSource src source).source src' = s.source src' := Function.update_of_ne h ..

theorem closed_emit (s : State) (signal : Signal) (id : ℕ) :
    (s.emit signal).closed id = s.closed id + if signal.closes id then 1 else 0 := by
  rw [State.closed, State.emit, List.countP_append, List.countP_singleton]
  rfl

theorem release_of_not_mem (h : n ∉ s.notifications) : s.release reason n = s := if_neg h

theorem source_release (h : n ∈ s.notifications) (src : ℕ) : (s.release reason n).source src =
      { s.source src with
        notifications := if src = (s.notification n).source then
          (s.source src).notifications.erase n else (s.source src).notifications } := by
  rw [State.release, if_pos h]
  by_cases hsrc : src = (s.notification n).source
  · subst hsrc
    rw [if_pos rfl]
    exact setSource_self ..
  · rw [if_neg hsrc]
    exact setSource_other _ _ hsrc

theorem notifications_release (s : State) (reason : DestroyedReason) (n : ℕ) :
    (s.release reason n).notifications = s.notifications.erase n := by
  by_cases h : n ∈ s.notifications
  · rw [State.release, if_pos h]
    rfl
  · rw [release_of_not_mem h, List.erase_of_not_mem h]

theorem closed_release (h : n ∈ s.notifications) (id : ℕ) :
    (s.release reason n).closed id = s.closed id + if n = id then 1 else 0 := by
  rw [State.release, if_pos h]
  refine (closed_emit _ (.notificationClosed n reason.closed) id).trans ?_
  simp [Signal.closes, State.closed]

theorem release_fields (s : State) (reason : DestroyedReason) (n : ℕ) :
    (s.release reason n).notification = s.notification ∧
      (s.release reason n).created = s.created ∧ (s.release reason n).given = s.given ∧
      (s.release reason n).returned = s.returned ∧
      (s.release reason n).nextNotificationId = s.nextNotificationId ∧
      (s.release reason n).sourcesForApp = s.sourcesForApp ∧
      (s.release reason n).sourceForPidAndName = s.sourceForPidAndName := by
  rw [State.release]
  split <;> exact ⟨rfl, rfl, rfl, rfl, rfl, rfl, rfl⟩

section

variable (h : Inv s open?)
include h

theorem Inv.listed_release (hn : n ∈ s.notifications) (m : ℕ) :
    (s.release reason n).Listed m ↔ m ≠ n ∧ s.Listed m := by
  rw [State.Listed, State.Listed, (release_fields s reason n).1, source_release hn]
  dsimp only
  by_cases hmn : m = n
  · subst hmn
    simp only [if_true, (h.lists _).mem_erase_iff, ne_eq, not_true, false_and]
  · split
    · simp only [List.mem_erase_of_ne hmn, ne_eq, hmn, not_false_iff, true_and]
    · simp only [ne_eq, hmn, not_false_iff, true_and]

theorem Inv.release (hopen : open? ≠ some n) : Inv (s.release reason n) open? := by
  by_cases hn : n ∈ s.notifications
  · obtain ⟨hnotification, hcreated, hgiven, hreturned, hnext, happs, hnames⟩ :=
      release_fields s reason n
    have hmem : ∀ m, m ∈ (s.release reason n).notifications ↔ m ≠ n ∧ m ∈ s.notifications := by
      intro m
      rw [notifications_release]
      exact h.notifications.mem_erase_iff
    have hsub : ∀ src, ((s.release reason n).source src).notifications.Sublist
        (s.source src).notifications := by
      intro src
      rw [source_release hn]
      dsimp only
      split
      · exact List.erase_sublist
      · exact List.Sublist.refl _
    refine
      { registered := fun m => ?_
        opened := fun m hm => ?_
        notifications := ?_
        lists := fun src => (h.lists src).sublist (hsub src)
        sources := fun src m hm => ?_
        created := fun src hsrc => ?_
        known := by rw [happs, hcreated]; exact h.known
        knownByName := by rw [hnames, hcreated]; exact h.knownByName
        given := by rw [hgiven]; exact h.given
        next := by rw [hgiven, hnext]; exact h.next
        positive := by rw [hnext]; exact h.positive
        notificationsGiven := fun m hm => ?_
        returnedGiven := by rw [hreturned, hgiven]; exact h.returnedGiven
        fresh := fun m hm => ?_
        live := fun m hm => ?_
        gone := fun m hm hgone => ?_ }
    · rw [hmem, h.registered, h.listed_release hn]
      constructor
      · rintro ⟨hmn, hlisted | hopened⟩
        · exact Or.inl ⟨hmn, hlisted⟩
        · exact Or.inr hopened
      · rintro (⟨hmn, hlisted⟩ | hopened)
        · exact ⟨hmn, Or.inl hlisted⟩
        · exact ⟨fun hmn => hopen (hmn ▸ hopened), Or.inr hopened⟩
    · rw [h.listed_release hn, hnotification, hcreated]
      exact ⟨fun hlisted => (h.opened m hm).1 hlisted.2, (h.opened m hm).2⟩
    · rw [notifications_release]
      exact h.notifications.erase n
    · rw [hnotification]
      exact h.sources src m ((hsub src).subset hm)
    · rw [hcreated] at hsrc
      exact List.eq_nil_of_subset_nil (h.created src hsrc ▸ (hsub src).subset)
    · rw [hgiven]
      exact h.notificationsGiven m ((hmem m).mp hm).2
    · -- an id that was not given is not that of `n`
      rw [hgiven] at hm
      have hne : n ≠ m := fun heq => hm (heq ▸ h.notificationsGiven n hn)
      rw [closed_release hn, if_neg hne, h.fresh m hm]
    · obtain ⟨hmn, hmem'⟩ := (hmem m).mp hm
      rw [closed_release hn, if_neg (Ne.symm hmn), h.live m hmem']
    · rw [hreturned] at hm
      rw [closed_release hn]
      by_cases hmn : n = m
      · subst hmn
        rw [if_pos rfl, h.live n hn]
      · rw [if_neg hmn]
        exact h.gone m hm fun hmem' => hgone ((hmem m).mpr ⟨Ne.symm hmn, hmem'⟩)
  · rwa [release_of_not_mem hn]

theorem Inv.foldl_release {l : List ℕ} (hl : ∀ n ∈ l, open? ≠ some n) :
    Inv (l.foldl (State.release · reason ·) s) open? := by
  induction l generalizing s with
  | nil => exact h
  | cons n l ih =>
    exact ih (h.release (hl n List.mem_cons_self)) fun m hm => hl m (List.mem_cons_of_mem _ hm)

theorem Inv.setSource (src : ℕ) (source : Source)
    (hsource : source.notifications = (s.source src).notifications) :
    Inv (s.setSource src source) open? := by
  have hlist : ∀ src', ((s.setSource src source).source src').notifications =
      (s.source src').notifications := by
    intro src'
    by_cases hsrc : src' = src
    · subst hsrc
      rw [setSource_self, hsource]
    · rw [setSource_other _ _ hsrc]
  have hlisted : ∀ m, (s.setSource src source).Listed m ↔ s.Listed m := by
    intro m
    rw [State.Listed, hlist]
    exact Iff.rfl
  exact
    { h with
      registered := fun m => (h.registered m).trans (or_congr_left (hlisted m).symm)
      opened := fun m hm => ⟨fun hl => (h.opened m hm).1 ((hlisted m).mp hl), (h.opened m hm).2⟩
      lists := fun src' => hlist src' ▸ h.lists src'
      sources := fun src' m hm => h.sources src' m (hlist src' ▸ hm)
      created := fun src' hsrc => (hlist src').trans (h.created src' hsrc) }

theorem Inv.forgetSource (src : ℕ) : Inv (s.forgetSource src) open? where
  __ := h
  known app src' hknown := by
    rw [State.forgetSource] at hknown
    exact h.known app src' (Option.ite_none_left_eq_some.mp hknown).2
  knownByName key src' hknown := by
    rw [State.forgetSource] at hknown
    exact h.knownByName key src' (Option.ite_none_left_eq_some.mp hknown).2

theorem Inv.ne_of_mem (hn : n ∈ (s.source src).notifications) :
    open? ≠ some n := by
  intro hopened
  apply (h.opened n hopened).1
  rw [State.Listed, h.sources src n hn]
  exact hn

theorem Inv.destroySource (src : ℕ) : Inv (s.destroySource src) open? := by
  have hflag := h.setSource src { s.source src with inDestruction := true } rfl
  exact (hflag.foldl_release fun n hn => hflag.ne_of_mem hn).forgetSource src

theorem Inv.destroyNotification (hopen : open? ≠ some n) :
    Inv (s.destroyNotification reason n) open? := by
  rw [State.destroyNotification]
  split
  · exact (h.release hopen).destroySource _
  · exact h.release hopen

theorem Inv.foldl_destroyNotification {l : List ℕ}
    (hl : ∀ n ∈ l, open? ≠ some n) :
    Inv (l.foldl (State.destroyNotification · reason ·) s) open? := by
  induction l generalizing s with
  | nil => exact h
  | cons n l ih =>
    exact ih (h.destroyNotification (hl n List.mem_cons_self))
      fun m hm => hl m (List.mem_cons_of_mem _ hm)

end

/-! What a notification is stays as it is when others are destroyed. -/

theorem notification_foldl_release (l : List ℕ) (s : State) :
    (l.foldl (State.release · reason ·) s).notification = s.notification := by
  induction l generalizing s with
  | nil => rfl
  | cons n l ih => exact (ih _).trans (release_fields s reason n).1

theorem notification_destroySource (s : State) (src : ℕ) :
    (s.destroySource src).notification = s.notification :=
  notification_foldl_release ..

theorem notification_destroyNotification (s : State) (reason : DestroyedReason) (n : ℕ) :
    (s.destroyNotification reason n).notification = s.notification := by
  rw [State.destroyNotification]
  split
  · exact (notification_destroySource ..).trans (release_fields s reason n).1
  · exact (release_fields s reason n).1

theorem notification_foldl_destroyNotification (l : List ℕ) (s : State) :
    (l.foldl (State.destroyNotification · reason ·) s).notification = s.notification := by
  induction l generalizing s with
  | nil => rfl
  | cons n l ih => exact (ih _).trans (notification_destroyNotification s reason n)

end Release

/-! ## A call -/

section Notify

variable {open? : Option ℕ} {env : Environment} {p : Params}

theorem Inv.setNotification (h : Inv s open?) {notification : Notification}
    (hsource : notification.source = (s.notification n).source) :
    Inv (s.setNotification n notification) open? := by
  have hsources : ∀ m, ((s.setNotification n notification).notification m).source =
      (s.notification m).source := by
    intro m
    by_cases hm : m = n
    · subst hm
      exact (congrArg Notification.source (Function.update_self ..)).trans hsource
    · exact congrArg Notification.source (Function.update_of_ne hm ..)
  have hlisted : ∀ m, (s.setNotification n notification).Listed m ↔ s.Listed m := by
    intro m
    rw [State.Listed, hsources]
    exact Iff.rfl
  exact
    { h with
      registered := fun m => (h.registered m).trans (or_congr_left (hlisted m).symm)
      opened := fun m hm =>
        ⟨fun hl => (h.opened m hm).1 ((hlisted m).mp hl), hsources m ▸ (h.opened m hm).2⟩
      sources := fun src m hm => (hsources m).trans (h.sources src m hm) }

theorem Inv.mem_notifications (h : Inv s open?) (hn : n ∈ (s.source src).notifications) :
    n ∈ s.notifications := by
  apply (h.registered n).mpr
  left
  rw [State.Listed, h.sources src n hn]
  exact hn

theorem Inv.push (h : Inv s (some id)) (hsrc : (s.notification id).source = src) :
    Inv (s.setSource src
      { s.source src with notifications := (s.source src).notifications ++ [id] }) none := by
  obtain ⟨hnot, hlt⟩ := h.opened id rfl
  rw [State.Listed, hsrc] at hnot
  rw [hsrc] at hlt
  have hlist : ∀ src', ((s.setSource src
      { s.source src with notifications := (s.source src).notifications ++ [id] }).source
        src').notifications =
      (s.source src').notifications ++ if src' = src then [id] else [] := by
    intro src'
    by_cases heq : src' = src
    · subst heq
      rw [setSource_self, if_pos rfl]
    · rw [setSource_other _ _ heq, if_neg heq, List.append_nil]
  refine
    { h with
      registered := fun m => ?_
      opened := fun m hm => by cases hm
      lists := fun src' => ?_
      sources := fun src' m hm => ?_
      created := fun src' hle => ?_ }
  · refine (h.registered m).trans ?_
    rw [State.Listed, State.Listed, hlist, List.mem_append]
    simp only [Option.some.injEq, reduceCtorEq, or_false]
    refine or_congr_right ⟨fun hm => ?_, fun hm => ?_⟩
    · subst hm
      exact (if_pos hsrc).symm ▸ List.mem_singleton_self _
    · split at hm
      · exact (List.mem_singleton.mp hm).symm
      · cases hm
  · rw [hlist]
    split
    · next heq =>
      subst heq
      exact List.nodup_append.mpr ⟨h.lists _, List.pairwise_singleton _ _, fun a ha b hb hab =>
        hnot (List.mem_singleton.mp hb ▸ hab ▸ ha)⟩
    · rw [List.append_nil]
      exact h.lists src'
  · rw [hlist] at hm
    obtain hm | hm := List.mem_append.mp hm
    · exact h.sources src' m hm
    · split at hm
      · next heq =>
        rw [List.mem_singleton.mp hm]
        exact hsrc.trans heq.symm
      · cases hm
  · have hne : src' ≠ src := fun heq => absurd hlt (Nat.not_lt.mpr (heq ▸ hle))
    rw [hlist, if_neg hne, List.append_nil]
    exact h.created src' hle

theorem Inv.addNotification (h : Inv s (some id)) (hsrc : (s.notification id).source = src) :
    Inv (s.addNotification src id) none ∧ id ∈ (s.addNotification src id).notifications := by
  have hnot : id ∉ (s.source src).notifications := fun hid => h.ne_of_mem hid rfl
  rw [State.addNotification, if_neg hnot]
  dsimp only
  generalize hl : (s.source src).notifications.take _ = l
  have hroom : Inv (l.foldl (State.destroyNotification · .expired ·) s) (some id) :=
    h.foldl_destroyNotification fun n hn => h.ne_of_mem (List.mem_of_mem_take (hl ▸ hn))
  have hsource : ((l.foldl (State.destroyNotification · .expired ·) s).notification id).source =
      src := by
    rw [notification_foldl_destroyNotification]
    exact hsrc
  exact ⟨hroom.push hsource, (hroom.registered id).mpr (Or.inr rfl)⟩

theorem Inv.newSource (h : Inv s open?) (source : Source) (hsource : source.notifications = []) :
    Inv { s.setSource s.created source with created := s.created + 1 } open? := by
  have hset := h.setSource s.created source (hsource.trans (h.created _ (Nat.le_refl _)).symm)
  exact
    { h with
      registered := hset.registered
      opened := fun m hm => ⟨(hset.opened m hm).1, Nat.lt_succ_of_lt (hset.opened m hm).2⟩
      lists := hset.lists
      sources := hset.sources
      created := fun src hle => hset.created src (Nat.le_of_succ_le hle)
      known := fun app src hknown => Nat.lt_succ_of_lt (h.known app src hknown)
      knownByName := fun key src hknown => Nat.lt_succ_of_lt (h.knownByName key src hknown) }

theorem Inv.setSources (h : Inv s open?) {sourcesForApp : ℕ → Option ℕ}
    {sourceForPidAndName : String → Option ℕ}
    (hknown : ∀ app src, sourcesForApp app = some src → src < s.created)
    (hname : ∀ key src, sourceForPidAndName key = some src → src < s.created) :
    Inv { s with sourcesForApp := sourcesForApp, sourceForPidAndName := sourceForPidAndName }
      open? :=
  { h with known := hknown, knownByName := hname }

theorem update_some_lt {α : Type*} [DecidableEq α] {f : α → Option ℕ} {bound : ℕ}
    (hf : ∀ a src, f a = some src → src < bound) (a : α) :
    ∀ b src, Function.update f a (some bound) b = some src → src < bound + 1 := by
  intro b src hb
  by_cases hba : b = a
  · subst hba
    rw [Function.update_self] at hb
    cases hb
    exact Nat.lt_succ_self _
  · rw [Function.update_of_ne hba] at hb
    exact Nat.lt_succ_of_lt (hf b src hb)

theorem Inv.addSource (h : Inv s open?) (env : Environment) (p : Params) :
    Inv (s.addSource env p) open? := by
  rw [State.addSource]
  split
  · next app _ =>
    have hnew := h.newSource (Source.new (some app) none) rfl
    exact hnew.setSources (update_some_lt h.known app) hnew.knownByName
  · dsimp only
    split
    · exact h.newSource (Source.new none none) rfl
    · have hnew := h.newSource
        (Source.new none (some (pidAndName p.hints.senderPid p.appName))) rfl
      exact hnew.setSources hnew.known
        (update_some_lt h.knownByName (pidAndName p.hints.senderPid p.appName))

theorem addSource_fields (s : State) (env : Environment) (p : Params) :
    (s.addSource env p).created = s.created + 1 ∧ (s.addSource env p).given = s.given ∧
      (s.addSource env p).notifications = s.notifications ∧
      (s.addSource env p).signals = s.signals := by
  rw [State.addSource]
  split
  · exact ⟨rfl, rfl, rfl, rfl⟩
  · dsimp only
    split <;> exact ⟨rfl, rfl, rfl, rfl⟩

theorem Inv.knownSource (h : Inv s open?) (hknown : s.knownSource env p = some src) :
    src < s.created := by
  rw [State.knownSource] at hknown
  split at hknown
  · exact h.known _ _ hknown
  · exact h.knownByName _ _ hknown

theorem Inv.getSource (h : Inv s open?) (hget : s.getSource env p = some (t, src)) :
    Inv t open? ∧ src < t.created ∧ t.given = s.given ∧ t.notifications = s.notifications ∧
      t.signals = s.signals := by
  rw [State.getSource] at hget
  split at hget
  · next src' hknown =>
    obtain ⟨rfl, rfl⟩ := Prod.mk.inj (Option.some.inj hget)
    exact ⟨h, h.knownSource hknown, rfl, rfl, rfl⟩
  · obtain ⟨-, heq⟩ := Option.ite_none_right_eq_some.mp hget
    obtain ⟨rfl, rfl⟩ := Prod.mk.inj (Option.some.inj heq)
    obtain ⟨hcreated, hgiven, hnotifications, hsignals⟩ := addSource_fields s env p
    refine ⟨h.addSource env p, ?_, hgiven, hnotifications, hsignals⟩
    rw [hcreated]
    exact Nat.lt_succ_self _

theorem Inv.give (h : Inv s open?) : Inv { s with
      nextNotificationId := s.nextNotificationId + 1
      given := s.nextNotificationId :: s.given } open? :=
  { h with
    given := List.nodup_cons.mpr
      ⟨fun hmem => Nat.lt_irrefl _ (h.next _ hmem).1, h.given⟩
    next := fun id hid => by
      obtain rfl | hid := List.mem_cons.mp hid
      · exact ⟨Nat.lt_succ_self _, h.positive⟩
      · exact ⟨Nat.lt_succ_of_lt (h.next id hid).1, (h.next id hid).2⟩
    positive := Nat.succ_ne_zero _
    notificationsGiven := fun n hn => List.mem_cons_of_mem _ (h.notificationsGiven n hn)
    returnedGiven := fun n hn => List.mem_cons_of_mem _ (h.returnedGiven n hn)
    fresh := fun n hn => h.fresh n fun hmem => hn (List.mem_cons_of_mem _ hmem) }

theorem Inv.register (h : Inv s none) (hgiven : id ∈ s.given) (hnot : id ∉ s.notifications)
    (hclosed : s.closed id = 0) (hsrc : src < s.created) :
    Inv { s.setNotification id (Notification.new src) with
      notifications := s.notifications ++ [id] } (some id) := by
  have hself : (s.setNotification id (Notification.new src)).notification id =
      Notification.new src := Function.update_self ..
  have hother : ∀ m, m ≠ id →
      (s.setNotification id (Notification.new src)).notification m = s.notification m :=
    fun m hm => Function.update_of_ne hm ..
  have hunlisted : ∀ src', id ∉ (s.source src').notifications := fun src' hid =>
    hnot (h.mem_notifications hid)
  have hlisted : ∀ m, State.Listed { s.setNotification id (Notification.new src) with
      notifications := s.notifications ++ [id] } m ↔ s.Listed m := by
    intro m
    by_cases hm : m = id
    · subst hm
      exact iff_of_false (hunlisted _) (hunlisted _)
    · rw [State.Listed]
      dsimp only
      rw [hother m hm]
      exact Iff.rfl
  refine
    { h with
      registered := fun m => ?_
      opened := fun m hm => ?_
      notifications := ?_
      sources := fun src' m hm => ?_
      notificationsGiven := fun m hm => ?_
      live := fun m hm => ?_
      gone := fun m hm hgone => h.gone m hm fun hmem => hgone (List.mem_append_left _ hmem) }
  · rw [hlisted, List.mem_append, h.registered m, List.mem_singleton]
    simp only [reduceCtorEq, or_false, Option.some.injEq, eq_comm]
  · cases hm
    refine ⟨fun hl => hunlisted _ ((hlisted id).mp hl), ?_⟩
    dsimp only
    rw [hself]
    exact hsrc
  · exact List.nodup_append.mpr ⟨h.notifications, List.pairwise_singleton _ _, fun a ha b hb hab =>
      hnot (List.mem_singleton.mp hb ▸ hab ▸ ha)⟩
  · have hm' : m ≠ id := fun heq => hunlisted src' (heq ▸ hm)
    dsimp only
    rw [hother m hm']
    exact h.sources src' m hm
  · obtain hm | hm := List.mem_append.mp hm
    · exact h.notificationsGiven m hm
    · rwa [List.mem_singleton.mp hm]
  · obtain hm | hm := List.mem_append.mp hm
    · exact h.live m hm
    · rwa [List.mem_singleton.mp hm]

theorem Inv.return (h : Inv s none) (hid : id ∈ s.notifications) :
    Inv { s with returned := s.returned ++ [id] } none :=
  { h with
    returnedGiven := fun n hn => by
      obtain hn | hn := List.mem_append.mp hn
      · exact h.returnedGiven n hn
      · rw [List.mem_singleton.mp hn]
        exact h.notificationsGiven id hid
    gone := fun n hn hgone => by
      obtain hn | hn := List.mem_append.mp hn
      · exact h.gone n hn hgone
      · exact absurd (List.mem_singleton.mp hn ▸ hid) hgone }

/-- `processNotification` up to `addNotification`. -/
def State.process (s : State) (env : Environment) (src n : ℕ) (appName : String)
    (appIcon : Option Icon) : State :=
  let source := s.source src
  let s := s.setSource src
    { source with
      appName := if source.app = none ∧ appName ≠ "" then some appName else source.appName
      appIcon := if source.app = none ∧ appIcon ≠ none then appIcon else source.appIcon }
  let notification := s.notification n
  s.setNotification n
    { notification with
      acknowledged := notification.acknowledged ||
        (notification.resident && source.app.isSome && env.focusApp = source.app) }

/-- A call whose hints are converted, up to `addNotification`. -/
def State.filled (s : State) (env : Environment) (p : Params) (c : Converted) (id : ℕ) : State :=
  let src := (s.notification id).source
  (s.setNotification id (State.content p c (s.notification id))).process env src id p.appName
    (if (s.source src).app.isSome then none else iconForNotificationData p.appIcon)

theorem fill_eq {c : Converted} (hconvert : p.hints.convert = some c) : s.fill env p id =
      let t := (s.filled env p c id).addNotification (s.notification id).source id
      { t with returned := t.returned ++ [id] } := by
  rw [State.fill, hconvert]
  rfl

theorem Inv.process (h : Inv s open?) (env : Environment) (src n : ℕ) (appName : String)
    (appIcon : Option Icon) : Inv (s.process env src n appName appIcon) open? := by
  have hsource := h.setSource src
    { s.source src with
      appName := if (s.source src).app = none ∧ appName ≠ "" then some appName
        else (s.source src).appName
      appIcon := if (s.source src).app = none ∧ appIcon ≠ none then appIcon
        else (s.source src).appIcon } rfl
  exact hsource.setNotification rfl

theorem source_process (s : State) (env : Environment) (src n : ℕ) (appName : String)
    (appIcon : Option Icon) (src' : ℕ) :
    ((s.process env src n appName appIcon).source src').notifications =
      (s.source src').notifications := by
  by_cases hsrc : src' = src
  · subst hsrc
    simp only [State.process, State.setNotification, setSource_self]
  · simp only [State.process, State.setNotification, setSource_other _ _ hsrc]

theorem process_notification_source (s : State) (env : Environment) (src n : ℕ) (appName : String)
    (appIcon : Option Icon) :
    ((s.process env src n appName appIcon).notification n).source = (s.notification n).source := by
  simp only [State.process, State.setNotification, State.setSource, Function.update_self]

theorem Inv.filled (h : Inv s open?) (env : Environment) (p : Params) (c : Converted) (id : ℕ) :
    Inv (s.filled env p c id) open? := by
  have hcontent : Inv (s.setNotification id (State.content p c (s.notification id))) open? :=
    h.setNotification rfl
  exact hcontent.process env _ id _ _

theorem source_filled (s : State) (env : Environment) (p : Params) (c : Converted) (id src : ℕ) :
    ((s.filled env p c id).source src).notifications = (s.source src).notifications :=
  source_process ..

theorem filled_notification_source (s : State) (env : Environment) (p : Params) (c : Converted)
    (id : ℕ) : ((s.filled env p c id).notification id).source = (s.notification id).source := by
  rw [State.filled, process_notification_source]
  simp only [State.setNotification, Function.update_self, State.content]

theorem fill_of_listed {c : Converted} (hconvert : p.hints.convert = some c)
    (hlisted : s.Listed id) : s.fill env p id =
      { s.filled env p c id with returned := (s.filled env p c id).returned ++ [id] } := by
  have hmem : id ∈ ((s.filled env p c id).source (s.notification id).source).notifications := by
    rw [source_filled]
    exact hlisted
  rw [fill_eq hconvert]
  dsimp only
  rw [State.addNotification, if_pos hmem]

theorem fill_of_not_converted (hconvert : p.hints.convert = none) : s.fill env p id = s := by
  rw [State.fill, hconvert]

theorem Inv.fill_of_mem (h : Inv s none) (hid : id ∈ s.notifications) : Inv (s.fill env p id) none := by
  cases hconvert : p.hints.convert with
  | none => rwa [fill_of_not_converted hconvert]
  | some c =>
    have hlisted : s.Listed id := ((h.registered id).mp hid).resolve_right (by simp)
    rw [fill_of_listed hconvert hlisted]
    exact (h.filled env p c id).return hid

theorem Inv.fill_open (h : Inv s (some id)) (hconvert : p.hints.convert.isSome = true) :
    Inv (s.fill env p id) none := by
  obtain ⟨c, hc⟩ := Option.isSome_iff_exists.mp hconvert
  rw [fill_eq hc]
  have hadd := (h.filled env p c id).addNotification (filled_notification_source s env p c id)
  exact hadd.1.return hadd.2

def FailsMidway (s : State) (env : Environment) (p : Params) : Prop :=
  ¬ (p.replacesId ≠ 0 ∧ p.replacesId ∈ s.notifications) ∧
    (s.knownSource env p ≠ none ∨ Watchable p.hints.sender) ∧ p.hints.convert = none

instance (s : State) (env : Environment) (p : Params) : Decidable (FailsMidway s env p) :=
  have : Decidable (p.hints.convert = none) := decidable_of_iff _ Option.isNone_iff_eq_none
  inferInstanceAs (Decidable (¬ (_ ∧ _) ∧ (_ ∨ _) ∧ _))

def State.give (s : State) : State :=
  { s with
    nextNotificationId := s.nextNotificationId + 1
    given := s.nextNotificationId :: s.given }

/-- The notification of a call that found the source `src` in `t`. -/
def State.open (t : State) (id src : ℕ) : State :=
  { t.setNotification id (Notification.new src) with notifications := t.notifications ++ [id] }

theorem notifyAsync_of_source (hnew : ¬ (p.replacesId ≠ 0 ∧ p.replacesId ∈ s.notifications))
    (hget : s.give.getSource env p = some (t, src)) : s.notifyAsync env p =
      (t.open s.nextNotificationId src).fill env p s.nextNotificationId := by
  rw [State.notifyAsync, if_neg hnew]
  simp only [State.give] at hget
  simp only [hget]
  rfl

theorem notifyAsync_of_no_source (hnew : ¬ (p.replacesId ≠ 0 ∧ p.replacesId ∈ s.notifications))
    (hget : s.give.getSource env p = none) : s.notifyAsync env p = s.give := by
  rw [State.notifyAsync, if_neg hnew]
  simp only [State.give] at hget
  simp only [hget, State.give]

theorem Inv.open (h : Inv s none) (hget : s.give.getSource env p = some (t, src)) :
    Inv (t.open s.nextNotificationId src) (some s.nextNotificationId) := by
  have hfresh : s.nextNotificationId ∉ s.given := fun hmem =>
    Nat.lt_irrefl _ (h.next _ hmem).1
  obtain ⟨hinv, hsrc, hgiven, hnotifications, hsignals⟩ := h.give.getSource hget
  refine hinv.register ?_ ?_ ?_ hsrc
  · rw [hgiven]
    exact List.mem_cons_self
  · rw [hnotifications]
    exact fun hmem => hfresh (h.notificationsGiven _ hmem)
  · rw [State.closed, hsignals]
    exact h.fresh _ hfresh

theorem getSource_eq_none_iff :
    s.give.getSource env p = none ↔ s.knownSource env p = none ∧ ¬ Watchable p.hints.sender := by
  rw [State.getSource, show s.give.knownSource env p = s.knownSource env p from rfl]
  cases hknown : s.knownSource env p with
  | none => simp
  | some src => simp

theorem Inv.notifyAsync (h : Inv s none) (hok : ¬ FailsMidway s env p) :
    Inv (s.notifyAsync env p) none := by
  by_cases hreplace : p.replacesId ≠ 0 ∧ p.replacesId ∈ s.notifications
  · rw [State.notifyAsync, if_pos hreplace]
    exact h.fill_of_mem hreplace.2
  · cases hget : s.give.getSource env p with
    | none =>
      rw [notifyAsync_of_no_source hreplace hget]
      exact h.give
    | some found =>
      rw [notifyAsync_of_source hreplace hget]
      refine (h.open hget).fill_open ?_
      apply Option.isSome_iff_ne_none.mpr
      intro hconvert
      refine hok ⟨hreplace, ?_, hconvert⟩
      by_contra hsource
      push Not at hsource
      have hnone : s.give.getSource env p = none := getSource_eq_none_iff.mpr hsource
      rw [hget] at hnone
      cases hnone

theorem Inv.not_registered (h : Inv s none) (hfails : FailsMidway s env p) :
    ¬ ∀ n, n ∈ (s.notifyAsync env p).notifications ↔ (s.notifyAsync env p).Listed n := by
  obtain ⟨hnew, hsource, hconvert⟩ := hfails
  cases hget : s.give.getSource env p with
  | none =>
    obtain ⟨hknown, hwatch⟩ := getSource_eq_none_iff.mp hget
    exact absurd hsource (not_or_intro (not_not.mpr hknown) hwatch)
  | some found =>
    rw [notifyAsync_of_source hnew hget, fill_of_not_converted hconvert]
    intro hregistered
    have hopen := h.open hget
    exact (hopen.opened _ rfl).1
      ((hregistered _).mp ((hopen.registered _).mpr (Or.inr rfl)))

end Notify

/-! ## Runs -/

section Runs

theorem Inv.replaces (h : Inv s none) : s.Replaces := by
  intro env p hmem
  have hlisted : s.Listed p.replacesId := ((h.registered _).mp hmem).resolve_right (by simp)
  have hpos : p.replacesId ≠ 0 := (h.next _ (h.notificationsGiven _ hmem)).2
  rw [State.notifyAsync, if_pos ⟨hpos, hmem⟩]
  cases hconvert : p.hints.convert with
  | none =>
    rw [fill_of_not_converted hconvert]
    exact ⟨rfl, fun _ => rfl, rfl, (List.append_nil _).symm⟩
  | some c =>
    rw [fill_of_listed hconvert hlisted]
    exact ⟨rfl, fun src => source_filled s env p c _ src, rfl, rfl⟩

theorem Inv.consistent (h : Inv s none) : Consistent s where
  __ := h
  replaces := h.replaces
  registered n := (h.registered n).trans (or_iff_left (by simp))
  closed id hid := by
    by_cases hmem : id ∈ s.notifications
    · rw [if_pos hmem]
      exact h.live id hmem
    · rw [if_neg hmem]
      exact h.gone id hid hmem

theorem Inv.new : Inv State.new none where
  registered n := iff_of_false List.not_mem_nil (by rintro (h | h) <;> cases h)
  opened n hn := by cases hn
  notifications := List.nodup_nil
  lists _ := List.nodup_nil
  sources _ n hn := by cases hn
  created _ _ := rfl
  known _ _ h := by cases h
  knownByName _ _ h := by cases h
  given := List.nodup_nil
  next id hid := by cases hid
  positive := Nat.one_ne_zero
  notificationsGiven n hn := by cases hn
  returnedGiven n hn := by cases hn
  fresh _ _ := rfl
  live n hn := by cases hn
  gone n hn := by cases hn

section

variable (h : Inv s none)
include h

theorem Inv.emit {signal : Signal} (hsignal : ∀ id, signal.closes id = false) :
    Inv (s.emit signal) none := by
  have hclosed : ∀ id, (s.emit signal).closed id = s.closed id := by
    intro id
    rw [closed_emit, hsignal id]
    rfl
  exact
    { h with
      fresh := fun id hid => (hclosed id).trans (h.fresh id hid)
      live := fun id hid => (hclosed id).trans (h.live id hid)
      gone := fun id hid hgone => (hclosed id).trans (h.gone id hid hgone) }

theorem Inv.dismissUnlessResident : Inv (s.dismissUnlessResident n) none := by
  rw [State.dismissUnlessResident]
  split
  · exact h
  · exact h.destroyNotification (by simp)

theorem Inv.activate : Inv (s.activate n) none := by
  rw [State.activate]
  apply Inv.dismissUnlessResident
  split
  · exact (h.emit fun _ => rfl).emit fun _ => rfl
  · exact h.foldl_destroyNotification fun _ _ => by simp

theorem Inv.activateAction (actionId : String) :
    Inv (s.activateAction n actionId) none :=
  ((h.emit fun _ => rfl).emit fun _ => rfl).dismissUnlessResident

end

def Careful (s : State) : Event → Prop
  | .notify env p => ¬ FailsMidway s env p
  | _ => True

theorem Inv.step {e : Event} (h : Inv s none) (hcareful : Careful s e) (hstep : step s e = some t) :
    Inv t none := by
  cases e with
  | notify env p =>
    cases hstep
    exact h.notifyAsync hcareful
  | closeNotification id =>
    cases hstep
    rw [State.closeNotification]
    split
    · exact h.destroyNotification (by simp)
    · exact h
  | activate n =>
    obtain ⟨-, heq⟩ := Option.ite_none_right_eq_some.mp hstep
    cases heq
    exact h.activate
  | activateAction n action =>
    obtain ⟨-, heq⟩ := Option.ite_none_right_eq_some.mp hstep
    cases heq
    exact h.activateAction action.1
  | destroyNotification n reason =>
    obtain ⟨-, heq⟩ := Option.ite_none_right_eq_some.mp hstep
    cases heq
    exact h.destroyNotification (by simp)
  | destroySource src =>
    obtain ⟨-, heq⟩ := Option.ite_none_right_eq_some.mp hstep
    cases heq
    exact h.destroySource src

theorem careful_of_consistent {e : Event} (h : Inv s none) (hstep : step s e = some t)
    (hconsistent : Consistent t) : Careful s e := by
  cases e with
  | notify env p =>
    intro hfails
    apply h.not_registered hfails
    cases hstep
    exact hconsistent.registered
  | _ => trivial

/-- **The ids are those of the listed notifications.** They are so after every step of a run, with
an end announced once for each id that was returned, exactly when no call fails between the
registration of a new notification and its source. -/
theorem run_registered_iff {es : List Event} (hrun : Runs.run step State.new es = some s) :
    Runs.Always step Consistent State.new es ↔ Runs.Allowed step Careful State.new es :=
  Runs.always_iff_allowed_of_kept Inv.new (fun _ h => Inv.consistent h)
    (fun _ _ _ h hcareful hstep => Inv.step h hcareful hstep)
    (fun _ _ _ h hstep hconsistent => careful_of_consistent h hstep hconsistent) hrun

instance (s : State) (e : Event) : Decidable (Careful s e) := by
  unfold Careful
  split <;> infer_instance

def oneApp : Environment where
  getAppFromPid := fun _ => none
  lookupApp := fun name => if name = "mail.desktop" then some 0 else none
  focusApp := none

def call (appName : String) (replacesId : ℕ) (imagePath : Option Value) (actions : List String) :
    Params where
  appName := appName
  replacesId := replacesId
  appIcon := ""
  summary := "Summary"
  body := ""
  actions := actions
  hints :=
    { sender := some (.string ":1.42"), senderPid := some 7, desktopEntry := ""
      imageData := none, imageDataOld := none, iconData := none
      imagePath := imagePath, imagePathOld := none
      soundFile := none, soundName := none
      urgency := .number 1, resident := false, isTransient := false, privacyScope := none }

/-- Notifications of two sources that are replaced, activated and closed; a call that replaces one
fails. -/
theorem run_registered_replaced : let es : List Event := [.notify oneApp (call "mail" 0 none []),
      .notify oneApp (call "send" 0 (some (.string "/icon.png")) ["default", "Open", "a", "A"]),
      .notify oneApp (call "mail" 1 (some (.number 5)) []),
      .notify oneApp (call "mail" 1 none []), .notify oneApp (call "mail" 9 none []),
      .activate 2, .activate 1, .closeNotification 3]
    ∃ s, Runs.run step State.new es = some s ∧ Runs.Always step Consistent State.new es := by
  intro es
  have hsome : (Runs.run step State.new es).isSome = true := by decide
  obtain ⟨s, hrun⟩ := Option.isSome_iff_exists.mp hsome
  refine ⟨s, hrun, (run_registered_iff hrun).mpr ?_⟩
  decide

def pathIsNumber : List Event := [.notify oneApp (call "mail" 0 (some (.number 5)) [])]

theorem not_run_registered : (Runs.run step State.new pathIsNumber).isSome = true ∧
    ¬ Runs.Always step Consistent State.new pathIsNumber := by
  have hends : (Runs.run step State.new pathIsNumber).map (fun s =>
      (s.notifications, (s.source (s.notification 1).source).notifications)) = some ([1], []) := by
    decide
  obtain ⟨s, hrun, hstate⟩ := Option.map_eq_some_iff.mp hends
  obtain ⟨hnotifications, hlist⟩ := Prod.mk.inj hstate
  refine ⟨Option.isSome_iff_exists.mpr ⟨s, hrun⟩, fun halways => ?_⟩
  obtain ⟨t, hstep, hnil⟩ := Option.bind_eq_some_iff.mp hrun
  cases hnil
  have hlast := (halways.2 s hstep).registered 1
  rw [State.Listed, hnotifications, hlist] at hlast
  exact List.not_mem_nil (hlast.mp (List.mem_singleton_self 1))

end Runs

end NotificationDaemon.Fdo
