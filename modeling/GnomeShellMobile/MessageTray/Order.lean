import GnomeShellMobile.MessageTray.Wiring

/-!
# MessageTray — the order of the queue

The queue is sorted when a notification enters it, and only then: a notification whose urgency changes
while it is queued keeps its place, and a new request for its banner finds it in the queue. So the
notification that is shown next is the most urgent one, and the first queued of these, all along a run
whose steps change no urgency past another notification of the queue.

A notification that is destroyed is taken out of the queue by a handler of its source, so it stays there
if the tray does not listen to the source any more.

* **`pairwise_insertionSort_append`**: the sort is stable.
* **`Ranked`**: the queue is in order, and so is what was newly shown.
* **`InOrder`**: the invariant, and **`shows_run`** the runs.
-/

namespace MessageTray

/-! ## The sort -/

section

variable {α : Type*} {A r : α → α → Prop} [DecidableRel r]

/-- Induction on the list. -/
theorem pairwise_orderedInsert {a : α} {l : List α} (hl : l.Pairwise A)
    (hle : ∀ b ∈ l, ∀ c ∈ l, A b c → r a b → r a c) (hafter : ∀ b ∈ l, r a b → A a b)
    (hbefore : ∀ b ∈ l, ¬ r a b → A b a) : (l.orderedInsert r a).Pairwise A := by
  induction l with
  | nil => exact List.pairwise_singleton A a
  | cons b l ih =>
    have hb : b ∈ b :: l := List.mem_cons_self
    have htail : ∀ {c}, c ∈ l → c ∈ b :: l := List.mem_cons_of_mem b
    rw [List.pairwise_cons] at hl
    rw [List.orderedInsert]
    split
    · next h =>
      refine List.pairwise_cons.mpr ⟨fun c hc => ?_, List.pairwise_cons.mpr hl⟩
      rcases List.mem_cons.mp hc with rfl | hin
      · exact hafter c hc h
      · exact hafter c hc (hle b hb c hc (hl.1 c hin) h)
    · next h =>
      refine List.pairwise_cons.mpr ⟨fun c hc => ?_, ih hl.2 ?_ ?_ ?_⟩
      · rcases List.mem_cons.mp ((List.perm_orderedInsert r a l).mem_iff.mp hc) with rfl | hc
        · exact hbefore b hb h
        · exact hl.1 c hc
      · exact fun c hc d hd => hle c (htail hc) d (htail hd)
      · exact fun c hc => hafter c (htail hc)
      · exact fun c hc => hbefore c (htail hc)

/-- A list in order, with one more element at its end, is in order after the sort. The order may be
finer than what is sorted by. Induction on the list. -/
theorem pairwise_insertionSort_append {n : α} {l : List α} (hl : l.Pairwise A)
    (hsort : ∀ a b, A a b → r a b) (htrans : ∀ a b c, r a b → r b c → r a c)
    (hafter : ∀ a ∈ l, r a n → A a n) (hbefore : ∀ a ∈ l, ¬ r a n → A n a) :
    ((l ++ [n]).insertionSort r).Pairwise A := by
  induction l with
  | nil => exact List.pairwise_singleton A n
  | cons a l ih =>
    have ha : a ∈ a :: l := List.mem_cons_self
    rw [List.pairwise_cons] at hl
    have hrest := ih hl.2 (fun b hb => hafter b (List.mem_cons_of_mem a hb))
      fun b hb => hbefore b (List.mem_cons_of_mem a hb)
    have hmem : ∀ b ∈ (l ++ [n]).insertionSort r, b ∈ l ∨ b = n := by
      intro b hb
      rw [List.mem_insertionSort, List.mem_append, List.mem_singleton] at hb
      exact hb
    refine pairwise_orderedInsert hrest (fun b _ c _ hbc hab => ?_) (fun b hb hab => ?_)
      fun b hb hab => ?_
    · exact htrans a b c hab (hsort b c hbc)
    · rcases hmem b hb with hin | rfl
      · exact hl.1 b hin
      · exact hafter a ha hab
    · rcases hmem b hb with hin | rfl
      · exact absurd (hsort a b (hl.1 b hin)) hab
      · exact hbefore a ha hab

end

/-! ## The order -/

/-- A notification of higher urgency is shown before one of lower urgency, and one that was queued at
`i` before one of the same urgency that was queued later, at `j`. -/
def Precedes (u : Urgency) (i : Nat) (v : Urgency) (j : Nat) : Prop :=
  v.toNat < u.toNat ∨ v.toNat = u.toNat ∧ i < j

instance (u : Urgency) (i : Nat) (v : Urgency) (j : Nat) : Decidable (Precedes u i v j) :=
  inferInstanceAs (Decidable (_ ∨ _ ∧ _))

theorem Precedes.asymm {u v : Urgency} {i j : Nat} (h : Precedes u i v j) : ¬ Precedes v j u i := by
  unfold Precedes at *
  omega

theorem Precedes.total {u v : Urgency} {i j : Nat} (hne : i ≠ j) (h : ¬ Precedes u i v j) :
    Precedes v j u i := by
  unfold Precedes at *
  omega

namespace State

variable {s t : State} {at' : NotificationId → Nat} {shown : Option NotificationId}

/-- `n` is to be shown before `m`, if the notifications were queued at `at'`. -/
def Before (s : State) (at' : NotificationId → Nat) (n m : NotificationId) : Prop :=
  Precedes (s.notification n).urgency (at' n) (s.notification m).urgency (at' m)

theorem SameNotifications.before (h : SameNotifications s t)
    (at' : NotificationId → Nat) : t.Before at' = s.Before at' := by
  funext n m
  unfold Before
  rw [(h n).1, (h m).1]

/-- The queue is in order, and a notification that is shown, other than `shown`, was the first of it. -/
structure Ranked (at' : NotificationId → Nat) (shown : Option NotificationId) (s : State) : Prop where
  sorted : s.notificationQueue.Pairwise (s.Before at')
  first : ∀ n, s.current = some n → shown ≠ some n →
    ∀ m ∈ s.notificationQueue, s.Before at' n m

section

variable (h : Ranked at' shown s)
include h

theorem Ranked.quiets (hquiets : Quiets s t) : Ranked at' shown t := by
  refine ⟨?_, fun n hn hnot m hm => ?_⟩
  · rw [hquiets.same.before]
    exact h.sorted.sublist hquiets.queue
  · rw [hquiets.same.before]
    rcases hquiets.current with heq | heq
    · exact h.first n (heq.symm.trans hn) hnot m (hquiets.queue.subset hm)
    · exact nomatch heq.symm.trans hn

theorem Ranked.takes (htakes : Takes s t) : Ranked at' shown t := by
  obtain ⟨hsame, n, hqueue, hcur⟩ := htakes
  have hsorted := h.sorted
  rw [hqueue, List.pairwise_cons] at hsorted
  refine ⟨?_, fun m hm _ => ?_⟩
  · rw [hsame.before]
    exact hsorted.2
  · obtain rfl := Option.some.inj (hcur.symm.trans hm)
    rw [hsame.before]
    exact hsorted.1

/-- Induction on the moves. -/
theorem Ranked.moves (hmoves : Moves s t) : Ranked at' shown t := by
  induction hmoves with
  | refl => exact h
  | tail _ hmove ih =>
    rcases hmove with hmove | hmove
    · exact ih.quiets hmove
    · exact ih.takes hmove

end

theorem Ranked.queueNotification {s : State} {n : NotificationId} (h : Ranked at' shown s)
    (hcur : s.current = shown ∨ s.current = none)
    (hlast : ∀ m ∈ s.notificationQueue, at' m < at' n) : Ranked at' shown (s.queueNotification n) := by
  have hsame : SameNotifications s (s.queueNotification n) := sameNotifications_of_env rfl
  refine ⟨?_, fun m hm hnot => ?_⟩
  · rw [hsame.before]
    refine pairwise_insertionSort_append h.sorted (fun a b hab => ?_) (fun a b c hab hbc => ?_)
      (fun a ha hle => ?_) fun a _ hle => ?_
    · rcases hab with hlt | ⟨heq, -⟩
      · exact hlt.le
      · exact heq.le
    · exact hbc.trans hab
    · rcases Nat.lt_or_eq_of_le hle with hlt | heq
      · exact .inl hlt
      · exact .inr ⟨heq, hlast a ha⟩
    · exact .inl (Nat.lt_of_not_le hle)
  · replace hm : s.current = some m := hm
    rcases hcur with heq | heq
    · exact absurd (heq.symm.trans hm) hnot
    · exact nomatch heq.symm.trans hm

inductive Queues (s t : State) : Prop where
  | moves (h : Moves s t)
  | queued (n : NotificationId) {v : State} (hquiets : Quiets s v) (hnot : n ∉ s.notificationQueue)
      (h : Moves (v.queueNotification n) t)

theorem Queues.from_queue (h : Queues s t) :
    ∃ n, ∀ m ∈ t.notificationQueue, m ∈ s.notificationQueue ∨ m = n := by
  cases h with
  | moves h => exact ⟨0, fun m hm => .inl (h.from_queue.1 m hm)⟩
  | queued n hquiets _ h =>
    refine ⟨n, fun m hm => ?_⟩
    exact (mem_queueNotification.mp (h.from_queue.1 m hm)).imp_left fun hq => hquiets.queue.subset hq

theorem Ranked.queues {clock : Nat} (h : Ranked at' s.current s) (hqueues : Queues s t)
    (hlast : ∀ m ∈ s.notificationQueue, at' m < clock)
    (hnew : ∀ n, n ∉ s.notificationQueue → at' n = clock) : Ranked at' s.current t := by
  cases hqueues with
  | moves hmoves => exact h.moves hmoves
  | queued n hquiets hnot hmoves =>
    refine ((h.quiets hquiets).queueNotification hquiets.current fun m hm => ?_).moves hmoves
    rw [hnew n hnot]
    exact hlast m (hquiets.queue.subset hm)

theorem Requests.queues {n : NotificationId} {s v t : State} (h : Requests n v t)
    (hquiets : Quiets s v) (hnot : n ∉ v.notificationQueue → n ∉ s.notificationQueue) :
    Queues s t := by
  rcases h with h | ⟨hn, -, h⟩
  · exact .moves ((covers_moves.of_quiets hquiets).trans h)
  · exact .queued n hquiets (hnot hn) h

end State

open State

namespace World

variable {w : World}

/-! ## What a step does to the queue -/

@[simp] theorem add_tray (w : World) (src : SourceId) : (w.add src).tray = w.tray := by
  unfold add
  split
  · rfl
  · exact onSourceEnableChanged_tray _ src

@[simp] theorem add_notifications (w : World) (src : SourceId) :
    (w.add src).notifications = w.notifications := by
  unfold add
  split
  · rfl
  · exact onSourceEnableChanged_notifications _ src

theorem Wired.onNotificationDestroy_quiets (h : w.Wired) (n : NotificationId)
    (pending : Bool) : Quiets w.tray (w.onNotificationDestroy n pending).tray := by
  have hquiets := (h.removeNotification_removed n).quiets
  rcases onNotificationDestroy_eq w n pending with heq | ⟨-, heq⟩
  · exact heq ▸ hquiets
  · rw [heq, emitDestroy_tray]
    exact hquiets

theorem Wired.destroySource_quiets (h : w.Wired) (src : SourceId) :
    Quiets w.tray (w.destroySource src).tray := by
  rw [World.destroySource, emitDestroy_tray]
  exact (h.foldl_removed _).quiets

theorem Wired.requestBanner_queues {w u : World} {n : NotificationId} (hu : u.Wired)
    (hquiets : Quiets w.tray u.tray)
    (hnot : n ∉ u.tray.notificationQueue → n ∉ w.tray.notificationQueue) :
    Queues w.tray (u.requestBanner n).tray := by
  rcases hu.requestBanner_tray n with ⟨-, heq⟩ | ⟨-, hreq⟩
  · rw [heq]
    exact .moves (covers_moves.of_quiets hquiets)
  · exact hreq.queues hquiets hnot

theorem Wired.addNotification_queues (h : w.Wired) (hlisted : w.Listed)
    (n : NotificationId) : Queues w.tray (w.addNotification n).tray := by
  unfold World.addNotification
  split
  · exact .moves .refl
  · next hnot =>
    have hremoved := h.destroyOldest_removed (w.source n)
    have hnew : n ∉ w.tray.notificationQueue := fun hn => hnot (hlisted n hn)
    exact (hremoved.wired.pushNotification n).requestBanner_queues hremoved.quiets fun _ => hnew

theorem Wired.setAcknowledged_queues (h : w.Wired) (n : NotificationId) (b : Bool) :
    Queues w.tray (w.setAcknowledged n b).tray := by
  have hquiets := acknowledge_quiets w n b
  unfold World.setAcknowledged
  split
  · exact .moves .refl
  split
  · exact (h.acknowledge n b).requestBanner_queues hquiets id
  · exact .moves (covers_moves.of_quiets hquiets)

theorem Wired.step_queues {w t : World} {e : WorldEvent} (h : w.Wired) (hlisted : w.Listed)
    (hstep : w.step e = some t) : Queues w.tray t.tray ∨
      ∃ n u, e = .tray (.setUrgency n u) ∧
        t = { w with tray := w.tray.modifyNotification n fun n => { n with urgency := u } } := by
  cases e with
  | add src =>
    simp only [World.step] at hstep
    split at hstep <;> cases hstep
    refine .inl (.moves ?_)
    rw [add_tray]
  | setEnable src b =>
    simp only [World.step] at hstep
    split at hstep
    · cases hstep
    · next halive =>
      cases hstep
      exact .inl (.moves (h.setEnable_notified b (Bool.eq_false_of_not_eq_true halive)).moves)
  | setPolicy src p =>
    simp only [World.step] at hstep
    split at hstep <;> cases hstep
    exact .inl (.moves (h.setPolicy_notified src p).moves)
  | addNotification n =>
    simp only [World.step] at hstep
    split at hstep <;> cases hstep
    exact .inl (h.addNotification_queues hlisted n)
  | destroyNotification n pending =>
    simp only [World.step] at hstep
    split at hstep <;> cases hstep
    exact .inl (.moves (covers_moves.of_quiets (h.onNotificationDestroy_quiets n pending)))
  | destroySource src =>
    simp only [World.step] at hstep
    split at hstep <;> cases hstep
    exact .inl (.moves (covers_moves.of_quiets (h.destroySource_quiets src)))
  | requestBanner n =>
    simp only [World.step] at hstep
    split at hstep <;> cases hstep
    exact .inl (h.requestBanner_queues (Quiets.refl _) id)
  | setAcknowledged n b =>
    cases hstep
    exact .inl (h.setAcknowledged_queues n b)
  | tray e =>
    simp only [World.step] at hstep
    split at hstep
    · cases hstep
    · next he =>
      obtain ⟨s, hs, rfl⟩ := Option.map_eq_some_iff.mp hstep
      rcases tray_step (Bool.eq_false_of_not_eq_true he) hs with hmoves | ⟨-, -, n, u, rfl, rfl⟩
      · exact .inl (.moves hmoves)
      · exact .inr ⟨n, u, rfl, rfl⟩

/-! ## Removed notifications -/

def destroys (w : World) : WorldEvent → List NotificationId
  | .destroyNotification n _ => [n]
  | .destroySource src => w.notifications src
  | .addNotification n =>
    if n ∈ w.notifications (w.source n) then [] else oldest (w.notifications (w.source n))
  | _ => []

theorem Listed.of_subset {w t : World} (h : w.Listed)
    (hqueue : ∀ n ∈ t.tray.notificationQueue, n ∈ w.tray.notificationQueue)
    (hsource : ∀ n, t.source n = w.source n) (hnotifications : t.notifications = w.notifications) :
    t.Listed := by
  intro n hn
  rw [hsource, hnotifications]
  exact h n (hqueue n hn)

theorem Listed.of_moves {w t : World} (h : w.Listed) (hmoves : Moves w.tray t.tray)
    (hnotifications : t.notifications = w.notifications) : t.Listed :=
  h.of_subset hmoves.from_queue.1 (source_of_same hmoves.same) hnotifications

theorem Listed.requestBanner (h : w.Listed) (hw : w.Wired) {n : NotificationId}
    (hn : n ∈ w.notifications (w.source n)) : (w.requestBanner n).Listed := by
  intro m hm
  rw [source_of_same (hw.requestBanner_same n)]
  rcases hw.requestBanner_tray n with ⟨-, heq⟩ | ⟨-, hreq⟩
  · exact h m (heq ▸ hm)
  · rcases hreq.from_queue.1 m hm with hq | rfl
    · exact h m hq
    · exact hn

theorem Listed.emitDestroy (h : w.Listed) (src : SourceId) : (w.emitDestroy src).Listed := by
  refine h.of_moves ?_ (emitDestroy_notifications w src)
  rw [emitDestroy_tray]

theorem Listed.step {w t : World} {e : WorldEvent} (h : w.Listed) (hw : w.Wired)
    (hok : ∀ n ∈ w.destroys e, n ∈ w.tray.notificationQueue → w.contains (w.source n) = true)
    (hstep : w.step e = some t) : t.Listed := by
  cases e with
  | add src =>
    simp only [World.step] at hstep
    split at hstep <;> cases hstep
    refine h.of_moves ?_ (add_notifications w src)
    rw [add_tray]
  | setEnable src b =>
    simp only [World.step] at hstep
    split at hstep
    · cases hstep
    · next halive =>
      cases hstep
      have hnotified := hw.setEnable_notified b (Bool.eq_false_of_not_eq_true halive)
      exact h.of_moves hnotified.moves hnotified.notifications
  | setPolicy src p =>
    simp only [World.step] at hstep
    split at hstep <;> cases hstep
    have hnotified := hw.setPolicy_notified src p
    exact h.of_moves hnotified.moves hnotified.notifications
  | addNotification n =>
    simp only [World.step] at hstep
    split at hstep <;> cases hstep
    unfold World.addNotification
    split
    · exact h
    · next hnot =>
      have hremoved := hw.destroyOldest_removed (w.source n)
      simp only [destroys, if_neg hnot] at hok
      have hlisted := hremoved.listed h hok
      generalize destroyOldest (w.notifications (w.source n)) w = u at hremoved hlisted
      have hpushed : (u.pushNotification n).Listed := fun m hm =>
        mem_pushNotification (hlisted m hm)
      exact hpushed.requestBanner (hremoved.wired.pushNotification n) (self_mem_pushNotification u n)
  | destroyNotification n pending =>
    simp only [World.step] at hstep
    split at hstep <;> cases hstep
    have hlisted := (hw.removeNotification_removed n).listed h hok
    rcases onNotificationDestroy_eq w n pending with heq | ⟨-, heq⟩
    · exact heq ▸ hlisted
    · exact heq ▸ hlisted.emitDestroy _
  | destroySource src =>
    simp only [World.step] at hstep
    split at hstep <;> cases hstep
    exact ((hw.foldl_removed _).listed h hok).emitDestroy src
  | requestBanner n =>
    simp only [World.step] at hstep
    split at hstep
    · next hn =>
      cases hstep
      exact h.requestBanner hw hn
    · cases hstep
  | setAcknowledged n b =>
    cases hstep
    have hquiets := acknowledge_quiets w n b
    have hack : (w.acknowledge n b).Listed := h.of_moves (covers_moves.of_quiets hquiets) rfl
    unfold World.setAcknowledged
    split
    · exact h
    split
    · next hn =>
      refine hack.requestBanner (hw.acknowledge n b) ?_
      rw [source_of_same hquiets.same]
      exact hn.2
    · exact hack
  | tray e =>
    simp only [World.step] at hstep
    split at hstep
    · cases hstep
    · next he =>
      obtain ⟨s, hs, rfl⟩ := Option.map_eq_some_iff.mp hstep
      have he := Bool.eq_false_of_not_eq_true he
      refine h.of_subset (fun n hn => ?_) (tray_step_source he hs) rfl
      rcases tray_step he hs with hmoves | ⟨hqueue, -⟩
      · exact hmoves.from_queue.1 n hn
      · exact hqueue ▸ hn

end World

/-! ## Runs -/

structure Timed where
  world : World
  queuedAt : NotificationId → Nat
  clock : Nat

namespace Timed

variable {s : Timed}

def new (env : Environment) (enable : SourceId → Bool) : Timed := ⟨.new env enable, fun _ => 0, 0⟩

variable (t : Timed)

def queue : List NotificationId := t.world.tray.notificationQueue

def Before (t : Timed) (n m : NotificationId) : Prop := t.world.tray.Before t.queuedAt n m

instance (n m : NotificationId) : Decidable (t.Before n m) :=
  inferInstanceAs (Decidable (Precedes _ _ _ _))

def step (t : Timed) (e : WorldEvent) : Option Timed :=
  (t.world.step e).map fun w =>
    { world := w
      -- what is not in the queue enters it now, if it does
      queuedAt := fun n => if n ∈ t.queue then t.queuedAt n else t.clock
      clock := t.clock + 1 }

/-- What a step from `s` to `t` leaves in the queue, and what it newly shows. -/
structure Shows (s t : Timed) : Prop where
  nodup : t.queue.Nodup
  listed : t.world.Listed
  first : ∀ n, t.world.tray.current = some n → s.world.tray.current ≠ some n →
    ∀ m ∈ t.queue, t.Before n m

def InPlace : WorldEvent → Prop
  | .tray (.setUrgency n u) =>
    n ∈ t.queue → ∀ m ∈ t.queue, m ≠ n →
      (Precedes u (t.queuedAt n) (t.world.tray.notification m).urgency (t.queuedAt m) ↔ t.Before n m)
  | _ => True

def Heard (e : WorldEvent) : Prop :=
  ∀ n ∈ t.world.destroys e, n ∈ t.queue → t.world.contains (t.world.source n) = true

def Kept (e : WorldEvent) : Prop := t.InPlace e ∧ t.Heard e

structure InOrder : Prop where
  wired : t.world.Wired
  listed : t.world.Listed
  sorted : t.queue.Pairwise t.Before
  past : ∀ n ∈ t.queue, t.queuedAt n < t.clock
  distinct : ∀ n ∈ t.queue, ∀ m ∈ t.queue, n ≠ m → t.queuedAt n ≠ t.queuedAt m

def stamped (n : NotificationId) : Nat := if n ∈ t.queue then t.queuedAt n else t.clock

theorem stamped_of_mem {t : Timed} {n : NotificationId} (h : n ∈ t.queue) :
    t.stamped n = t.queuedAt n := if_pos h

theorem stamped_of_not_mem {t : Timed} {n : NotificationId} (h : n ∉ t.queue) :
    t.stamped n = t.clock := if_neg h

section

variable (hs : s.InOrder)
include hs

theorem InOrder.ranked : Ranked s.stamped s.world.tray.current s.world.tray := by
  refine ⟨hs.sorted.imp_of_mem fun hn hm h => ?_, fun n hn hnot => absurd hn hnot⟩
  show Precedes _ (s.stamped _) _ (s.stamped _)
  rw [stamped_of_mem hn, stamped_of_mem hm]
  exact h

theorem InOrder.stamped_past (n : NotificationId) : s.stamped n < s.clock + 1 := by
  by_cases hn : n ∈ s.queue
  · have hpast := hs.past n hn
    rw [stamped_of_mem hn]
    omega
  · rw [stamped_of_not_mem hn]
    omega

theorem InOrder.stamped_ne {k n m : NotificationId}
    (hn : n ∈ s.queue ∨ n = k) (hm : m ∈ s.queue ∨ m = k) (hne : n ≠ m) :
    s.stamped n ≠ s.stamped m := by
  by_cases hn' : n ∈ s.queue
  · rw [stamped_of_mem hn']
    by_cases hm' : m ∈ s.queue
    · rw [stamped_of_mem hm']
      exact hs.distinct n hn' m hm' hne
    · rw [stamped_of_not_mem hm']
      exact (hs.past n hn').ne
  · have hm' : m ∈ s.queue := hm.resolve_right fun h => hne ((hn.resolve_left hn').trans h.symm)
    rw [stamped_of_not_mem hn', stamped_of_mem hm']
    exact (hs.past m hm').ne'

theorem InOrder.setUrgency {n : NotificationId} {u : Urgency}
    (hok : s.InPlace (.tray (.setUrgency n u))) : s.queue.Pairwise
      ((s.world.tray.modifyNotification n fun n => { n with urgency := u }).Before s.stamped) := by
  have hself : ((s.world.tray.modifyNotification n fun n => { n with urgency := u }).notification
      n).urgency = u := by
    show (if n = n then _ else _ : Notification).urgency = u
    rw [if_pos rfl]
  have hother : ∀ m, m ≠ n → ((s.world.tray.modifyNotification n
      fun n => { n with urgency := u }).notification m).urgency =
      (s.world.tray.notification m).urgency := by
    intro m hm
    show (if m = n then _ else _ : Notification).urgency = _
    rw [if_neg hm]
  refine hs.sorted.imp_of_mem fun {a b} ha hb hab => ?_
  have hne : a ≠ b := fun h => (h ▸ hab).asymm (h ▸ hab)
  unfold State.Before
  rw [stamped_of_mem ha, stamped_of_mem hb]
  by_cases han : a = n
  · rw [han, hself, hother b fun h => hne (han.trans h.symm)]
    exact (hok (han ▸ ha) b hb fun h => hne (han.trans h.symm)).mpr (han ▸ hab)
  by_cases hbn : b = n
  · rw [hbn, hself, hother a han]
    -- the other way round, the change would move it past `a`
    refine Precedes.total (hbn ▸ (hs.distinct a ha b hb hne).symm) fun h => ?_
    exact Precedes.asymm (hbn ▸ hab) ((hok (hbn ▸ hb) a ha han).mp h)
  · rw [hother a han, hother b hbn]
    exact hab

end

theorem InOrder.step {s t : Timed} {e : WorldEvent} (hs : s.InOrder) (hok : s.Kept e)
    (hstep : s.step e = some t) : Shows s t ∧ t.InOrder := by
  obtain ⟨w, hw, rfl⟩ := Option.map_eq_some_iff.mp hstep
  have hwired := hs.wired.step hw
  have hlisted := hs.listed.step hs.wired hok.2 hw
  have hpast : ∀ n, s.stamped n < s.clock + 1 := hs.stamped_past
  rcases hs.wired.step_queues hs.listed hw with hqueues | ⟨n, u, rfl, rfl⟩
  · have hranked := hs.ranked.queues hqueues
      (fun m hm => by rw [stamped_of_mem hm]; exact hs.past m hm) fun n hn => stamped_of_not_mem hn
    obtain ⟨k, hk⟩ := hqueues.from_queue
    refine ⟨⟨hwired.sound.nodup, hlisted, hranked.first⟩, hwired, hlisted, hranked.sorted,
      fun n _ => hpast n, fun n hn m hm hne => ?_⟩
    exact hs.stamped_ne (hk n hn) (hk m hm) hne
  · refine ⟨⟨hwired.sound.nodup, hlisted, fun m hm hnot => absurd hm hnot⟩, hwired, hlisted,
      hs.setUrgency hok.1, fun n _ => hpast n, fun a ha b hb hne => ?_⟩
    exact hs.stamped_ne (.inl ha) (.inl hb) hne (k := a)

theorem inOrder_new (env : Environment) (enable : SourceId → Bool) : (new env enable).InOrder :=
  ⟨World.wired_new env enable, fun _ h => (nomatch h), List.Pairwise.nil, fun _ h => (nomatch h),
    fun _ h => nomatch h⟩

/-- **The order of the queue.** In a run whose steps change no urgency past that of another notification
in the queue, and destroy no notification in the queue whose source the tray does not listen to, the
queue holds no notification twice and none that was removed, and a notification that is newly shown is
of the highest urgency, and the first queued of those. -/
theorem shows_run (env : Environment) (enable : SourceId → Bool) (es : List WorldEvent)
    (h : Runs.Allowed step Kept (new env enable) es) :
    Runs.Along step (fun s _ t => Shows s t) (new env enable) es :=
  Runs.Allowed.along (inOrder_new env enable) (fun _ _ _ hs hok hstep => hs.step hok hstep) h

instance (e : WorldEvent) : Decidable (t.InPlace e) := by
  unfold InPlace
  split <;> infer_instance

instance (e : WorldEvent) : Decidable (t.Kept e) :=
  inferInstanceAs (Decidable (_ ∧ ∀ _ ∈ _, _ → _))

/-- Three notifications ask for a banner while the first is shown; the second is removed, and the third
becomes urgent before the next one is shown. -/
theorem shows_run_urgent : Runs.Along step (fun s _ t => Shows s t) (new atWork fun _ => true)
      [.add 0, .addNotification 0, .addNotification 1, .addNotification 2,
        .destroyNotification 1 false, .tray (.setUrgency 2 .critical), .requestBanner 2,
        .tray .showCompleted, .tray .notificationTimeout, .tray .hideCompleted] :=
  shows_run _ _ _ (by decide)

/-- The third notification becomes urgent behind the second and asks for its banner again. It stays where
it is, and the second is shown next. -/
theorem not_shows_urgent :
    ¬ ∀ env enable es, Runs.Along step (fun s _ t => Shows s t) (new env enable) es := by
  intro h
  have hrun := h atWork (fun _ => true)
    [.add 0, .addNotification 0, .addNotification 1, .addNotification 2,
      .tray (.setUrgency 2 .critical), .requestBanner 2, .tray .showCompleted,
      .tray .notificationTimeout, .tray .hideCompleted]
  obtain ⟨-, hrun⟩ := hrun _ rfl
  obtain ⟨-, hrun⟩ := hrun _ rfl
  obtain ⟨-, hrun⟩ := hrun _ rfl
  obtain ⟨-, hrun⟩ := hrun _ rfl
  obtain ⟨-, hrun⟩ := hrun _ rfl
  obtain ⟨-, hrun⟩ := hrun _ rfl
  obtain ⟨-, hrun⟩ := hrun _ rfl
  obtain ⟨-, hrun⟩ := hrun _ rfl
  obtain ⟨hshows, -⟩ := hrun _ rfl
  have hfirst := hshows.first 1 (by decide) (by decide) 2 (by decide)
  revert hfirst
  decide

end Timed

end MessageTray
