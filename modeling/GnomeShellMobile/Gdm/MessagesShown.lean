import GnomeShellMobile.Gdm.MessageQueue

/-!
# UserVerifier — every message is shown

* `Inv`: while there are messages, the timer runs, and the first one is shown.
* `Emitting`: in an emission of `no-more-messages` the promises are settled one by one, provided
  that they have a cancellable. A promise of a verifier that was cleared has none.
* `run_messages`: where no promise is made then, the law holds all along.
-/

namespace UserVerifier

open State

variable (s : State)

structure Law : Prop where
  timer : s.messageQueueTimeout.isSome = true ↔ s.messageQueue ≠ []
  shown : ∀ m, s.currentMessage = some m → s.shown = some m
  settled : s.messageQueue = [] → s.unsettled = []
  distinct : (s.messageQueue.map (·.id)).Nodup

inductive Leaves (s : State) (m : Message) : Op → Prop where
  | shown {extra : ℕ} (hcurrent : s.currentMessage = some m) (hshown : s.shown = some m)
      (htime : s.shownAt + m.interval ≤ s.now) : Leaves s m (.timedOut extra)
  | clear : Leaves s m .clear
  | cancel : Leaves s m (.cancel true)
  | replaced {serviceName text : Option String} {type : MessageType} {extra : ℕ}
      (h : m.serviceName = serviceName ∧ m.type.toNat ≤ type.toNat ∨ m.text = text) :
      Leaves s m (.queuePriorityMessage serviceName text type extra)
  | filtered {serviceName : Option String} {type : MessageType} {extra : ℕ}
      (h : m.serviceName = serviceName ∧ m.type.toNat ≤ type.toNat ∨ m.text = none) :
      Leaves s m (.filterServiceMessages serviceName type extra)

def Accounted (op : Op) (s' : State) : Prop :=
  ∀ m ∈ s.messageQueue, m ∉ s'.messageQueue → Leaves s m op

/-- A promise is made while messages are pending only between `begin` and `clear`. -/
def Begun : Op → Prop
  | .handlePendingMessages => s.messageQueue ≠ [] → s.cancellable ≠ none
  | _ => True

instance (op : Op) : Decidable (Begun s op) := by
  unfold Begun
  split <;> infer_instance

/-- What is numbered, and what waits for `no-more-messages`. -/
structure Base : Prop where
  distinct : (s.messageQueue.map (·.id)).Nodup
  fresh : ∀ m ∈ s.messageQueue, m.id < s.nextId
  connections : (s.connections.map (·.id)).Nodup
  connected : ∀ c ∈ s.connections, c.id < s.nextId
  promises : ∀ p ∈ s.unsettled, ∃ k, ⟨p, .promise (some k)⟩ ∈ s.connections

def TimerRuns : Prop :=
  ∀ due, s.messageQueueTimeout = some due →
    ∃ m, s.currentMessage = some m ∧ s.shown = some m ∧ s.shownAt + m.interval ≤ due

structure Inv : Prop where
  base : Base s
  timer : TimerRuns s
  stopped : s.messageQueueTimeout = none → s.messageQueue = []
  settled : s.messageQueue = [] → s.unsettled = []

variable {s t : State} {op : Op} {extra : ℕ} {serviceName text : Option String} {type : MessageType}

theorem Base.congr (hbase : Base s) (hqueue : t.messageQueue = s.messageQueue)
    (hconnections : t.connections = s.connections) (hunsettled : t.unsettled = s.unsettled)
    (hnext : t.nextId = s.nextId) : Base t where
  distinct := hqueue ▸ hbase.distinct
  fresh m hm := hnext ▸ hbase.fresh m (hqueue ▸ hm)
  connections := hconnections ▸ hbase.connections
  connected c hc := hnext ▸ hbase.connected c (hconnections ▸ hc)
  promises p hp := hconnections ▸ hbase.promises p (hunsettled ▸ hp)

theorem Inv.law (h : Inv s) : Law s := by
  constructor
  · constructor
    · intro htimer hnil
      obtain ⟨due, hdue⟩ := Option.isSome_iff_exists.mp htimer
      obtain ⟨m, hm, -⟩ := h.timer due hdue
      rw [currentMessage, hnil] at hm
      cases hm
    · intro hne
      rw [Option.isSome_iff_ne_none]
      exact fun hnone => hne (h.stopped hnone)
  · intro m hm
    cases hdue : s.messageQueueTimeout with
    | none =>
      rw [currentMessage, h.stopped hdue] at hm
      cases hm
    | some due =>
      obtain ⟨m', hm', hshown, -⟩ := h.timer due hdue
      exact hshown.trans (hm'.symm.trans hm)
  · exact h.settled
  · exact h.base.distinct

theorem inv_new : Inv State.new where
  base := ⟨.nil, nofun, .nil, nofun, nofun⟩
  timer := nofun
  stopped _ := rfl
  settled _ := rfl

/-! ## An emission of `no-more-messages` -/

structure Emitting (time next : ℕ) (s : State) (cs : List Connection) : Prop where
  queue : s.messageQueue = []
  now : s.now = time
  nextId : s.nextId = next
  connections : (s.connections.map (·.id)).Nodup
  connected : ∀ c ∈ s.connections, c.id < next
  promises : ∀ p ∈ s.unsettled,
    ∃ k, ⟨p, .promise (some k)⟩ ∈ cs ∧ ⟨p, .promise (some k)⟩ ∈ s.connections

theorem clear_zero (s : State) : s.clear (finishMessageQueue 0) =
      { s.cancelCancellable with
        cancellable := none
        messageQueueTimeout := none
        shown := none
        shownAt := s.now } := by
  unfold clear clearMessageQueue cancelCancellable
  cases s.cancellable <;> rfl

variable {time next : ℕ} {c : Connection} {cs : List Connection}

theorem Emitting.clear (h : Emitting time next s cs) :
    Emitting time next (s.clear (finishMessageQueue 0)) cs := by
  rw [clear_zero]
  unfold cancelCancellable
  cases s.cancellable <;> exact ⟨h.queue, h.now, h.nextId, h.connections, h.connected, h.promises⟩

theorem Emitting.disconnect {id : ℕ} (h : Emitting time next s cs)
    (hid : ∀ p ∈ s.unsettled, p ≠ id) : Emitting time next (s.disconnect id) cs where
  __ := h
  connections := h.connections.sublist (List.filter_sublist.map _)
  connected c hc := h.connected c (List.mem_of_mem_filter hc)
  promises p hp := by
    obtain ⟨k, hcs, hconn⟩ := h.promises p hp
    exact ⟨k, hcs, List.mem_filter.mpr ⟨hconn, decide_eq_true (hid p hp)⟩⟩

theorem Emitting.tail (h : Emitting time next s (c :: cs))
    (hc : c ∈ s.connections → ∀ p ∈ s.unsettled, p ≠ c.id) : Emitting time next s cs where
  __ := h
  promises p hp := by
    obtain ⟨k, hcs, hconn⟩ := h.promises p hp
    rcases List.mem_cons.mp hcs with heq | hcs
    · exact absurd (congrArg Connection.id heq) (hc (heq ▸ hconn) p hp)
    · exact ⟨k, hcs, hconn⟩

theorem Emitting.eq_promise (h : Emitting time next s cs) (hc : c ∈ s.connections)
    (hp : c.id ∈ s.unsettled) : ∃ k, c.handler = .promise (some k) := by
  obtain ⟨k, -, hconn⟩ := h.promises c.id hp
  have heq := List.inj_on_of_nodup_map h.connections hc hconn rfl
  exact ⟨k, congrArg Connection.handler heq⟩

theorem unsettled_settle (s : State) (id : ℕ) (reject : Bool) :
    (s.settle id reject).unsettled = s.unsettled.filter (· ≠ id) := by
  cases reject <;> rfl

theorem settle_disconnect (s : State) (id : ℕ) (reject : Bool) :
    (s.disconnect id).settle id reject = (s.settle id reject).disconnect id := by
  cases reject <;> rfl

theorem Emitting.settle (id : ℕ) (reject : Bool) (h : Emitting time next s cs) :
    Emitting time next (s.settle id reject) cs := by
  have hpromises : ∀ p ∈ s.unsettled.filter (· ≠ id),
      ∃ k, ⟨p, .promise (some k)⟩ ∈ cs ∧ ⟨p, .promise (some k)⟩ ∈ s.connections :=
    fun p hp => h.promises p (List.mem_of_mem_filter hp)
  unfold State.settle
  split <;> exact ⟨h.queue, h.now, h.nextId, h.connections, h.connected, hpromises⟩

theorem Emitting.callHandler (h : Emitting time next s (c :: cs)) :
    Emitting time next (callHandler (finishMessageQueue 0) s c) cs := by
  unfold State.callHandler
  by_cases hc : c ∈ s.connections
  · rw [if_pos hc]
    obtain ⟨id, handler⟩ := c
    cases handler with
    | promise cancellable =>
      cases cancellable with
      | none =>
        -- without a cancellable it is not the connection of a promise that is to be settled
        have hne : ∀ p ∈ s.unsettled, p ≠ id := by
          rintro p hp rfl
          obtain ⟨k, hk⟩ := h.eq_promise hc hp
          cases hk
        exact (h.tail fun _ => hne).disconnect hne
      | some k =>
        have hne : ∀ p ∈ (s.settle id (k ∈ s.cancelled)).unsettled, p ≠ id := by
          rw [unsettled_settle]
          exact fun p hp => of_decide_eq_true (List.mem_filter.mp hp).2
        have hsettle := h.settle id (k ∈ s.cancelled)
        have hdisconnect := (hsettle.tail fun _ => hne).disconnect hne
        rwa [← settle_disconnect] at hdisconnect
    | clearing once =>
      have hne : ∀ p ∈ s.unsettled, p ≠ id := by
        rintro p hp rfl
        obtain ⟨k, hk⟩ := h.eq_promise hc hp
        cases hk
      cases once with
      | true => exact ((h.tail fun _ => hne).disconnect hne).clear
      | false => exact (h.tail fun _ => hne).clear
  · rw [if_neg hc]
    exact h.tail fun hmem => absurd hmem hc

/-- Induction on the handlers. -/
theorem Emitting.foldl (h : Emitting time next s cs) :
    Emitting time next (cs.foldl (State.callHandler (finishMessageQueue 0)) s) [] := by
  induction cs generalizing s with
  | nil => exact h
  | cons c cs ih => exact ih h.callHandler

theorem Emitting.unsettled (h : Emitting time next s []) : s.unsettled = [] := by
  rw [List.eq_nil_iff_forall_not_mem]
  intro p hp
  obtain ⟨k, hk, -⟩ := h.promises p hp
  exact absurd hk List.not_mem_nil

theorem hasPendingMessages_iff : s.hasPendingMessages = true ↔ s.messageQueue ≠ [] :=
  decide_eq_true_iff

theorem Inv.finish (hbase : Base s) (hsettled : s.messageQueue = [] → s.unsettled = []) :
    Emitting s.now s.nextId (finishMessageQueue 1 s) [] := by
  unfold finishMessageQueue
  split
  · next hpending =>
    apply Emitting.foldl
    exact ⟨rfl, rfl, rfl, hbase.connections, hbase.connected, fun p hp =>
      (hbase.promises p hp).imp fun k hk => ⟨hk, hk⟩⟩
  · next hpending =>
    have hqueue : s.messageQueue = [] := not_not.mp (hpending ∘ hasPendingMessages_iff.mpr)
    refine ⟨hqueue, rfl, rfl, hbase.connections, hbase.connected, ?_⟩
    rw [hsettled hqueue]
    exact fun p hp => absurd hp List.not_mem_nil

section

variable (h : s.messageQueueTimeout = none)
include h

theorem timeout_callHandler (c : Connection) :
    (callHandler (finishMessageQueue 0) s c).messageQueueTimeout = none := by
  unfold callHandler
  split
  · split
    · dsimp only
      split
      · exact h
      · unfold State.settle
        split <;> exact h
    · rfl
  · exact h

theorem timeout_foldl (cs : List Connection) :
    (cs.foldl (callHandler (finishMessageQueue 0)) s).messageQueueTimeout = none := by
  induction cs generalizing s with
  | nil => exact h
  | cons c cs ih => exact ih (timeout_callHandler h c)

theorem timeout_finish :
    (finishMessageQueue 1 s).messageQueueTimeout = none := by
  unfold finishMessageQueue
  split
  · exact timeout_foldl (s := { s with messageQueue := [] }) h _
  · exact h

end

section

variable (h : s.messageQueue = [])
include h

variable (depth : ℕ)

end

/-! ## What the operations keep -/

theorem Emitting.inv (h : Emitting time next s []) (htimeout : s.messageQueueTimeout = none) :
    Inv s where
  base := by
    refine ⟨?_, ?_, h.connections, h.nextId ▸ h.connected, ?_⟩
    · rw [h.queue]
      exact .nil
    · rw [h.queue]
      exact fun m hm => absurd hm List.not_mem_nil
    · rw [h.unsettled]
      exact fun p hp => absurd hp List.not_mem_nil
  timer due hdue := by
    rw [htimeout] at hdue
    cases hdue
  stopped _ := h.queue
  settled _ := h.unsettled

section

variable (hbase : Base s)
include hbase

theorem Base.queueMessageTimeout (htimer : TimerRuns s)
    (hqueue : s.messageQueue ≠ []) (extra : ℕ) : Inv (s.queueMessageTimeout extra) := by
  unfold State.queueMessageTimeout
  split
  · split
    · next hcurrent => exact absurd (List.head?_eq_none_iff.mp hcurrent) hqueue
    · next message hcurrent =>
      refine ⟨hbase.congr rfl rfl rfl rfl,
        ?_, nofun, fun hnil => absurd hnil hqueue⟩
      intro due hdue
      cases hdue
      refine ⟨message, hcurrent, rfl, ?_⟩
      dsimp only
      omega
  · next htimeout => exact ⟨hbase, htimer, fun h => absurd h htimeout, fun h => absurd h hqueue⟩

theorem Base.queueMessage (htimer : TimerRuns s)
    (serviceName text : Option String) (type : MessageType) (extra : ℕ) :
    Inv (s.queueMessage serviceName text type extra) := by
  unfold State.queueMessage
  apply Base.queueMessageTimeout
  · refine ⟨?_, ?_, hbase.connections, ?_, hbase.promises⟩
    · rw [List.map_append, List.map_singleton, List.nodup_append]
      refine ⟨hbase.distinct, List.nodup_singleton _, ?_⟩
      intro id hid id' hid' heq
      obtain ⟨m, hm, rfl⟩ := List.mem_map.mp hid
      rw [List.mem_singleton.mp hid'] at heq
      exact absurd heq (Nat.ne_of_lt (hbase.fresh m hm))
    · intro m hm
      rcases List.mem_append.mp hm with hm | hm
      · exact Nat.lt_succ_of_lt (hbase.fresh m hm)
      · rw [List.mem_singleton.mp hm]
        exact Nat.lt_succ_self _
    · exact fun c hc => Nat.lt_succ_of_lt (hbase.connected c hc)
  · intro due hdue
    obtain ⟨m, hm, hshown⟩ := htimer due hdue
    refine ⟨m, ?_, hshown⟩
    obtain ⟨rest, hrest⟩ := List.head?_eq_some_iff.mp hm
    rw [currentMessage, hrest]
    rfl
  · simp

theorem Base.sublist {queue : List Message}
    (hqueue : queue.Sublist s.messageQueue) : Base { s with messageQueue := queue } where
  __ := hbase
  distinct := hbase.distinct.sublist (hqueue.map _)
  fresh m hm := hbase.fresh m (hqueue.subset hm)

theorem Base.stop : Base { s with messageQueueTimeout := none } :=
  hbase.congr rfl rfl rfl rfl

end

theorem Inv.timedOut (h : Inv s) (extra : ℕ) : Inv (s.timedOut extra) := by
  unfold State.timedOut
  dsimp only
  split
  · next hlength =>
    have hbase := h.base.stop.sublist (List.tail_sublist s.messageQueue)
    refine hbase.queueMessageTimeout (fun due hdue => nomatch hdue) ?_ extra
    intro hnil
    have hzero := congrArg List.length hnil
    rw [List.length_tail, List.length_nil] at hzero
    omega
  · exact (Inv.finish h.base.stop h.settled).inv (timeout_finish rfl)

theorem Inv.clearMessageQueue (hbase : Base s) (hsettled : s.messageQueue = [] → s.unsettled = []) :
    Emitting s.now s.nextId (s.clearMessageQueue (finishMessageQueue 1)) [] ∧
      (s.clearMessageQueue (finishMessageQueue 1)).messageQueueTimeout = none := by
  have h := Inv.finish hbase hsettled
  exact ⟨⟨h.queue, h.now, h.nextId, h.connections, h.connected, h.promises⟩, rfl⟩

theorem Inv.cancelCancellable (h : Inv s) : Inv s.cancelCancellable := by
  unfold State.cancelCancellable
  cases s.cancellable with
  | none => exact h
  | some cancellable =>
    obtain ⟨hbase, htimer, hstopped, hsettled⟩ := h
    exact ⟨hbase.congr rfl rfl rfl rfl,
      htimer, hstopped, hsettled⟩

theorem Inv.clear (h : Inv s) : Inv (s.clear (finishMessageQueue 1)) := by
  have hcancel := h.cancelCancellable
  have hbase : Base { s.cancelCancellable with cancellable := none } :=
    hcancel.base.congr rfl rfl rfl rfl
  obtain ⟨hemitting, htimeout⟩ := Inv.clearMessageQueue hbase hcancel.settled
  exact hemitting.inv htimeout

theorem Inv.queuePriorityMessage (h : Inv s) (serviceName text : Option String)
    (type : MessageType) (extra : ℕ) :
    Inv (s.queuePriorityMessage serviceName text type extra) := by
  have hsublist := List.filter_sublist (p := stays serviceName text type) (l := s.messageQueue)
  unfold State.queuePriorityMessage
  dsimp only
  by_cases hincludes :
      s.includesCurrent (s.messageQueue.filter (stays serviceName text type)) = true
  · rw [if_pos hincludes]
    refine (h.base.sublist hsublist).queueMessage ?_ serviceName text type extra
    -- the first message stays the first one
    intro due hdue
    obtain ⟨m, hm, hshown⟩ := h.timer due hdue
    refine ⟨m, ?_, hshown⟩
    obtain ⟨rest, hrest⟩ := List.head?_eq_some_iff.mp hm
    rw [includesCurrent, hm, decide_eq_true_iff] at hincludes
    have hstays := (List.mem_filter.mp hincludes).2
    rw [currentMessage, hrest]
    dsimp only
    rw [List.filter_cons_of_pos hstays]
    rfl
  · rw [if_neg hincludes]
    obtain ⟨hemitting, htimeout⟩ := Inv.clearMessageQueue h.base h.settled
    refine Base.queueMessage ?_ ?_ serviceName text type extra
    · refine ⟨h.base.distinct.sublist (hsublist.map _), ?_, hemitting.connections, ?_, ?_⟩
      · intro m hm
        exact hemitting.nextId ▸ h.base.fresh m (hsublist.subset hm)
      · exact hemitting.nextId ▸ hemitting.connected
      · intro p hp
        exact absurd hp (hemitting.unsettled ▸ List.not_mem_nil)
    · intro due hdue
      cases hdue

theorem Base.connect {handler : Handler} {unsettled : List ℕ} (hbase : Base s)
    (hunsettled : ∀ p ∈ unsettled,
      p ∈ s.unsettled ∨ p = s.nextId ∧ ∃ k, handler = .promise (some k)) :
    Base { s with
      connections := s.connections ++ [⟨s.nextId, handler⟩]
      unsettled := unsettled
      nextId := s.nextId + 1 } where
  distinct := hbase.distinct
  fresh m hm := Nat.lt_succ_of_lt (hbase.fresh m hm)
  connections := by
    rw [List.map_append, List.map_singleton, List.nodup_append]
    refine ⟨hbase.connections, List.nodup_singleton _, ?_⟩
    intro id hid id' hid' heq
    obtain ⟨c, hc, rfl⟩ := List.mem_map.mp hid
    rw [List.mem_singleton.mp hid'] at heq
    exact absurd heq (Nat.ne_of_lt (hbase.connected c hc))
  connected c hc := by
    rcases List.mem_append.mp hc with hc | hc
    · exact Nat.lt_succ_of_lt (hbase.connected c hc)
    · rw [List.mem_singleton.mp hc]
      exact Nat.lt_succ_self _
  promises p hp := by
    rcases hunsettled p hp with hp | ⟨rfl, k, rfl⟩
    · exact (hbase.promises p hp).imp fun k hk => List.mem_append_left _ hk
    · exact ⟨k, List.mem_append_right _ (List.mem_singleton_self _)⟩

theorem Inv.handlePendingMessages (h : Inv s) (hbegun : s.messageQueue ≠ [] → s.cancellable ≠ none) :
    Inv s.handlePendingMessages := by
  unfold State.handlePendingMessages
  split
  · next hpending =>
    have hqueue := hasPendingMessages_iff.mp hpending
    obtain ⟨k, hk⟩ := Option.ne_none_iff_exists'.mp (hbegun hqueue)
    refine ⟨h.base.connect ?_, h.timer, h.stopped, fun hnil => absurd hnil hqueue⟩
    intro p hp
    rcases List.mem_append.mp hp with hp | hp
    · exact .inl hp
    · exact .inr ⟨List.mem_singleton.mp hp, k, congrArg Handler.promise hk⟩
  · exact h

theorem Inv.connectClearing (h : Inv s) (once : Bool) : Inv (s.connectClearing once) :=
  ⟨h.base.connect fun _ hp => .inl hp, h.timer, h.stopped, h.settled⟩

theorem Inv.step (h : Inv s) (hbegun : Begun s op) (hstep : UserVerifier.step s op = some t) : Inv t := by
  cases op with
  | queueMessage serviceName text type extra =>
    cases hstep
    exact h.base.queueMessage h.timer serviceName text type extra
  | queuePriorityMessage serviceName text type extra =>
    cases hstep
    exact h.queuePriorityMessage serviceName text type extra
  | filterServiceMessages serviceName type extra =>
    cases hstep
    unfold filterServiceMessages
    split
    · exact h.queuePriorityMessage serviceName none type extra
    · exact h
  | wait time =>
    cases hstep
    obtain ⟨hbase, htimer, hstopped, hsettled⟩ := h
    exact ⟨hbase.congr rfl rfl rfl rfl,
      htimer, hstopped, hsettled⟩
  | timedOut extra =>
    rw [UserVerifier.step] at hstep
    split at hstep
    · cases hstep
    · obtain ⟨-, heq⟩ := Option.ite_none_right_eq_some.mp hstep
      cases heq
      exact h.timedOut extra
  | handlePendingMessages =>
    cases hstep
    exact h.handlePendingMessages hbegun
  | connectClearing once =>
    cases hstep
    exact h.connectClearing once
  | begin =>
    cases hstep
    obtain ⟨hbase, htimer, hstopped, hsettled⟩ := h
    exact ⟨⟨hbase.distinct, fun m hm => Nat.lt_succ_of_lt (hbase.fresh m hm), hbase.connections,
      fun c hc => Nat.lt_succ_of_lt (hbase.connected c hc), hbase.promises⟩, htimer, hstopped,
      hsettled⟩
  | clear =>
    cases hstep
    exact h.clear
  | cancel userVerifier =>
    cases hstep
    cases userVerifier with
    | true => exact h.cancelCancellable.clear
    | false => exact h.cancelCancellable

/-! ## How messages leave -/

theorem messageQueue_queueMessageTimeout (s : State) (extra : ℕ) :
    (s.queueMessageTimeout extra).messageQueue = s.messageQueue := by
  unfold queueMessageTimeout
  split
  · split <;> rfl
  · rfl

theorem mem_queueMessage {m : Message} (hm : m ∈ s.messageQueue) :
    m ∈ (s.queueMessage serviceName text type extra).messageQueue := by
  rw [queueMessage, messageQueue_queueMessageTimeout]
  exact List.mem_append_left _ hm

theorem of_not_mem_queuePriorityMessage {m : Message} (hm : m ∈ s.messageQueue)
    (hleft : m ∉ (s.queuePriorityMessage serviceName text type extra).messageQueue) :
    m.serviceName = serviceName ∧ m.type.toNat ≤ type.toNat ∨ m.text = text := by
  have hstays : ¬stays serviceName text type m = true :=
    fun hstays => hleft (mem_queueMessage (List.mem_filter.mpr ⟨hm, hstays⟩))
  unfold stays at hstays
  split at hstays
  · exact .inr (not_not.mp fun hne => hstays (decide_eq_true hne))
  · next hservice =>
    obtain ⟨hservice, htype⟩ := not_or.mp hservice
    exact .inl ⟨not_not.mp hservice, Nat.le_of_lt (Nat.not_le.mp htype)⟩

theorem of_not_mem_timedOut {m : Message} (hm : m ∈ s.messageQueue)
    (hleft : m ∉ (s.timedOut extra).messageQueue) : s.currentMessage = some m := by
  unfold currentMessage
  cases hqueue : s.messageQueue with
  | nil =>
    rw [hqueue] at hm
    exact absurd hm List.not_mem_nil
  | cons first rest =>
    rw [hqueue] at hm
    rcases List.mem_cons.mp hm with rfl | hm
    · rfl
    · have hlength : s.messageQueue.length > 1 := by
        rw [hqueue, List.length_cons]
        exact Nat.succ_lt_succ (List.length_pos_of_mem hm)
      rw [timedOut, if_pos hlength, messageQueue_queueMessageTimeout, hqueue] at hleft
      exact absurd hm hleft

theorem Inv.accounted (h : Inv s) (hstep : UserVerifier.step s op = some t) : Accounted s op t := by
  intro m hm hleft
  cases op with
  | queueMessage =>
    cases hstep
    exact absurd (mem_queueMessage hm) hleft
  | queuePriorityMessage =>
    cases hstep
    exact .replaced (of_not_mem_queuePriorityMessage hm hleft)
  | filterServiceMessages =>
    cases hstep
    unfold filterServiceMessages at hleft
    split at hleft
    · exact .filtered (of_not_mem_queuePriorityMessage hm hleft)
    · exact absurd hm hleft
  | timedOut extra =>
    rw [UserVerifier.step] at hstep
    split at hstep
    · cases hstep
    · next due hdue =>
      obtain ⟨hle, heq⟩ := Option.ite_none_right_eq_some.mp hstep
      cases heq
      have hcurrent := of_not_mem_timedOut hm hleft
      obtain ⟨m', hm', hshown, htime⟩ := h.timer due hdue
      obtain rfl := Option.some.inj (hm'.symm.trans hcurrent)
      exact .shown hcurrent hshown (Nat.le_trans htime hle)
  | handlePendingMessages =>
    cases hstep
    unfold State.handlePendingMessages at hleft
    split at hleft <;> exact absurd hm hleft
  | wait | connectClearing | begin =>
    cases hstep
    exact absurd hm hleft
  | clear => exact .clear
  | cancel userVerifier =>
    cases userVerifier with
    | true => exact .cancel
    | false =>
      cases hstep
      refine absurd ?_ hleft
      unfold State.cancel State.cancelCancellable
      cases s.cancellable <;> exact hm

/-- The law holds all along, where no promise is made for a verifier that was cleared. -/
theorem run_messages {ops : List Op} (h : Runs.Allowed step Begun State.new ops) :
    Runs.Always step Law State.new ops ∧ Runs.Along step Accounted State.new ops :=
  ⟨h.always inv_new (fun _ => Inv.law) fun _ _ _ hinv hbegun hstep => hinv.step hbegun hstep,
    h.along inv_new fun _ _ _ hinv hbegun hstep =>
      ⟨hinv.accounted hstep, hinv.step hbegun hstep⟩⟩

/-- A message, and a promise that waits for it. -/
theorem run_messages_answered :
    Runs.Always step Law State.new [.begin, .queueMessage (some "gdm-password") (some "Hello") .info 0,
        .handlePendingMessages, .wait 240, .timedOut 0] ∧
      Runs.Along step Accounted State.new
        [.begin, .queueMessage (some "gdm-password") (some "Hello") .info 0, .handlePendingMessages,
          .wait 240, .timedOut 0] :=
  run_messages (by decide)

/-- A verification completes while a message is shown, and a listener will clear the verifier. It does
when a problem takes the place of the message; the promise for that one is never settled. -/
theorem not_run_messages : ∃ t, Runs.run step State.new
        [.begin, .queueMessage (some "gdm-password") (some "Hello") .info 0, .connectClearing true,
          .queuePriorityMessage (some "gdm-password") (some "Sorry") .error 0,
          .handlePendingMessages, .wait 240, .timedOut 0] = some t ∧ ¬ Law t := by
  have hend : (Runs.run step State.new
      [.begin, .queueMessage (some "gdm-password") (some "Hello") .info 0, .connectClearing true,
        .queuePriorityMessage (some "gdm-password") (some "Sorry") .error 0,
        .handlePendingMessages, .wait 240, .timedOut 0]).map
      (fun t => (t.messageQueue, t.unsettled)) = some ([], [4]) := by decide
  obtain ⟨t, ht, heq⟩ := Option.map_eq_some_iff.mp hend
  obtain ⟨hqueue, hunsettled⟩ := Prod.mk.inj heq
  refine ⟨t, ht, fun hlaw => ?_⟩
  have hsettled := hlaw.settled hqueue
  rw [hunsettled] at hsettled
  cases hsettled

end UserVerifier
