import GnomeShellMobile.Runs.Basic
import GnomeShellMobile.PowerManager.Step

/-!
# PowerManager — cancelling an action stops its entry body

An entry body finds out that its action was cancelled or replaced only by its cancellable, and
`_maybeCancelAction` reaches that cancellable only through `_actionStartCancellable`. So the
field has to hold the cancellable of the recorded action as long as that action's entry body
runs. It does, except that the `finally` handler of *any* entry body deletes it.

* `CancellableKept` — the property, with the effects of entry bodies read off the log.
* `FinallyAlone` — the side condition on steps: no `finally` handler runs while the entry body
  of the recorded action is still running.
* `Kept` — the inductive invariant; `InHand` is what it says of a body taken out of the pool.
-/

namespace PowerManager

def Thread.entryId : Thread → Option Nat
  | .body b _ => some b.cancellable
  | .bodyFinally b => some b.cancellable
  | _ => none

def Thread.isFinally : Thread → Bool
  | .bodyFinally _ => true
  | _ => false

theorem Thread.entryId_of_running {t : Thread} {c : Nat} (h : t.running = some c) :
    t.entryId = some c := by
  cases t <;> simp_all [Thread.running, Thread.entryId]

/-- The entry body that locks, installs the user-active watch or calls logind. -/
def Effect.by : Effect → Option Nat
  | .lock c => some c
  | .userActiveWatch entry => entry
  | .logindSuspend entry => entry
  | .logindHibernate c => some c
  | _ => none

/-- No entry body locks, installs a watch or calls logind after its action was cancelled or
replaced. The log is newest first. -/
def QuietAfterRevoked : List Effect → Prop
  | [] => True
  | e :: log => (∀ c, e.by = some c → .revoked c ∉ log) ∧ QuietAfterRevoked log

namespace State

variable (s : State)

/-- The entry body with cancellable `c` has not finished. -/
def BodyRunning (c : Nat) : Prop := ∃ t ∈ s.threads, t.running = some c

/-- While the entry body of the recorded action runs, `_actionStartCancellable` is that body's
cancellable, and bodies of cancelled or replaced actions have no effect. -/
structure CancellableKept : Prop where
  recorded : ∀ a, s.isInAction = some a →
    ∃ c, s.entry = some c ∧ (s.BodyRunning c → s.actionStartCancellable = some c)
  quiet : QuietAfterRevoked s.log

def RecordedRunning : Prop := ∃ t ∈ s.threads, t.running.isSome ∧ t.running = s.entry
deriving Decidable

/-- No `finally` handler runs while the entry body of the recorded action is running: a body
that was cancelled or replaced does not return during the entry of a later action. -/
def FinallyAlone : Event → Prop
  | .resume i _ => s.threads[i]?.any Thread.isFinally → ¬s.RecordedRunning
  | _ => True

instance (e : Event) : Decidable (s.FinallyAlone e) := by
  unfold FinallyAlone
  split <;> infer_instance

/-! ## The invariant -/

structure Kept : Prop where
  entry_some : s.isInAction.isSome → s.entry.isSome
  own : ∀ c, s.entry = some c →
    s.actionStartCancellable = none ∨ s.actionStartCancellable = some c
  held : ∀ c, s.entry = some c → s.BodyRunning c → s.actionStartCancellable = some c
  entry_lt : ∀ c, s.entry = some c → c < s.nextId
  start_lt : ∀ c, s.actionStartCancellable = some c → c < s.nextId
  thread_lt : ∀ t ∈ s.threads, ∀ c, t.entryId = some c → c < s.nextId
  revoked_lt : ∀ c, .revoked c ∈ s.log → c < s.nextId
  nodup : (s.threads.filterMap Thread.entryId).Nodup
  stopped : ∀ c, .revoked c ∈ s.log → s.BodyRunning c → c ∈ s.cancelled
  current : ∀ c, .revoked c ∈ s.log → s.entry ≠ some c
  quiet : QuietAfterRevoked s.log

theorem Kept.toCancellableKept {s : State} (h : s.Kept) : s.CancellableKept where
  recorded a ha := by
    obtain ⟨c, hc⟩ := Option.isSome_iff_exists.mp (h.entry_some (by simp [ha]))
    exact ⟨c, hc, h.held c hc⟩
  quiet := h.quiet

theorem kept_init : State.init.Kept := by
  constructor <;> simp [State.init, QuietAfterRevoked]

/-- The body with cancellable `c` has been taken out of the pool to go on. -/
structure InHand (c : Nat) : Prop where
  out : ∀ t ∈ s.threads, t.entryId ≠ some c
  lt : c < s.nextId
  stopped : .revoked c ∈ s.log → c ∈ s.cancelled
  held : s.entry = some c → s.actionStartCancellable = some c

/-! ### Updates that do not concern the entry bodies -/

variable {s s' : State}

theorem BodyRunning.congr (ht : s'.threads = s.threads) (c : Nat) :
    s'.BodyRunning c ↔ s.BodyRunning c := by
  unfold BodyRunning
  rw [ht]

theorem Kept.congr (h : s.Kept) (ha : s'.isInAction.isSome → s.isInAction.isSome)
    (he : s'.entry = s.entry) (hc : s'.actionStartCancellable = s.actionStartCancellable)
    (ht : s'.threads = s.threads) (hx : s'.cancelled = s.cancelled) (hl : s'.log = s.log)
    (hn : s.nextId ≤ s'.nextId) : s'.Kept where
  entry_some hs := he ▸ h.entry_some (ha hs)
  own c hs := hc ▸ h.own c (he ▸ hs)
  held c hs hr := hc ▸ h.held c (he ▸ hs) ((BodyRunning.congr ht c).mp hr)
  entry_lt c hs := Nat.lt_of_lt_of_le (h.entry_lt c (he ▸ hs)) hn
  start_lt c hs := Nat.lt_of_lt_of_le (h.start_lt c (hc ▸ hs)) hn
  thread_lt t hm c hs := Nat.lt_of_lt_of_le (h.thread_lt t (ht ▸ hm) c hs) hn
  revoked_lt c hs := Nat.lt_of_lt_of_le (h.revoked_lt c (hl ▸ hs)) hn
  nodup := ht ▸ h.nodup
  stopped c hs hr := hx ▸ h.stopped c (hl ▸ hs) ((BodyRunning.congr ht c).mp hr)
  current c hs := he ▸ h.current c (hl ▸ hs)
  quiet := hl ▸ h.quiet

theorem InHand.congr {c : Nat} (h : s.InHand c) (he : s'.entry = s.entry)
    (hc : s'.actionStartCancellable = s.actionStartCancellable) (ht : s'.threads = s.threads)
    (hx : s'.cancelled = s.cancelled) (hl : s'.log = s.log) (hn : s.nextId ≤ s'.nextId) :
    s'.InHand c where
  out := ht ▸ h.out
  lt := Nat.lt_of_lt_of_le h.lt hn
  stopped hs := hx ▸ h.stopped (hl ▸ hs)
  held hs := hc ▸ h.held (he ▸ hs)

theorem bodyRunning_push {t : Thread} {c : Nat} :
    (s.push t).BodyRunning c ↔ t.running = some c ∨ s.BodyRunning c := by
  simp [BodyRunning, push]

theorem Kept.push (h : s.Kept) {t : Thread} (ht : t.entryId = none) : (s.push t).Kept := by
  have hrun : ∀ c, (s.push t).BodyRunning c → s.BodyRunning c := by
    intro c hc
    rcases bodyRunning_push.mp hc with hr | hr
    · rw [Thread.entryId_of_running hr] at ht
      cases ht
    · exact hr
  exact {
    __ := h
    held := fun c hs hr => h.held c hs (hrun c hr)
    thread_lt := by
      intro u hu c hc
      rcases List.mem_cons.mp hu with rfl | hu
      · rw [ht] at hc
        cases hc
      · exact h.thread_lt u hu c hc
    nodup := by
      show (List.filterMap Thread.entryId (t :: s.threads)).Nodup
      rw [List.filterMap_cons_none ht]
      exact h.nodup
    stopped := fun c hs hr => h.stopped c hs (hrun c hr)
    quiet := h.quiet }

theorem Kept.emit (h : s.Kept) {e : Effect} (hr : ∀ c, e ≠ .revoked c)
    (hby : ∀ c, e.by = some c → .revoked c ∉ s.log) : (s.emit e).Kept := by
  have hmem : ∀ c, .revoked c ∈ (s.emit e).log → .revoked c ∈ s.log := by
    intro c hc
    rcases List.mem_cons.mp hc with he | hc
    · exact absurd he.symm (hr c)
    · exact hc
  exact {
    __ := h
    revoked_lt := fun c hc => h.revoked_lt c (hmem c hc)
    stopped := fun c hc => h.stopped c (hmem c hc)
    current := fun c hc => h.current c (hmem c hc)
    quiet := ⟨hby, h.quiet⟩ }

theorem InHand.emit {c : Nat} (h : s.InHand c) {e : Effect} (hr : e ≠ .revoked c) :
    (s.emit e).InHand c where
  __ := h
  stopped hs := h.stopped ((List.mem_cons.mp hs).resolve_left fun he => hr he.symm)

section

variable (h : s.Kept)
include h

theorem Kept.throw (e : Error) : (s.throw e).Kept :=
  h.emit (by simp) (by simp [Effect.by])

theorem Kept.turnOnScreen : s.turnOnScreen.Kept :=
  h.congr id rfl rfl rfl rfl rfl (Nat.le_refl _)

theorem Kept.turnOffScreen (owner : Option Nat) : (s.turnOffScreen owner).Kept :=
  h.congr id rfl rfl rfl rfl rfl (Nat.le_refl _)

theorem Kept.setSuspended : s.setSuspended.Kept :=
  h.congr id rfl rfl rfl rfl rfl (Nat.le_refl _)

theorem Kept.lockCancelling : s.lockCancelling.Kept :=
  h.congr id rfl rfl rfl rfl rfl (Nat.le_succ _)

theorem Kept.installWatch (entry : Option Nat)
    (hby : ∀ c, entry = some c → .revoked c ∉ s.log) : (s.installWatch entry).Kept := by
  unfold State.installWatch
  split
  · exact h
  · exact (h.emit (e := .userActiveWatch entry) (by simp) hby).congr id rfl rfl rfl rfl rfl (Nat.le_refl _)

end

theorem InHand.installWatch {c : Nat} (h : s.InHand c) (entry : Option Nat) :
    (s.installWatch entry).InHand c := by
  unfold State.installWatch
  split
  · exact h
  · exact (h.emit (e := .userActiveWatch entry) (by simp)).congr rfl rfl rfl rfl rfl (Nat.le_refl _)

theorem Kept.deleteAction (h : s.Kept) : s.deleteAction.Kept where
  __ := h
  entry_some := by simp [State.deleteAction]
  own := by simp [State.deleteAction]
  held := by simp [State.deleteAction]
  entry_lt := by simp [State.deleteAction]
  current := by simp [State.deleteAction]

theorem InHand.deleteAction {c : Nat} (h : s.InHand c) : s.deleteAction.InHand c where
  __ := h
  held := by simp [State.deleteAction]

theorem quiet_append_revoked {entry : Option Nat} {log : List Effect} (h : QuietAfterRevoked log) :
    QuietAfterRevoked (entry.toList.map Effect.revoked ++ log) := by
  cases entry with
  | none => simpa using h
  | some c => exact ⟨by simp [Effect.by], h⟩

theorem mem_log_cancelStart {c : Nat} :
    .revoked c ∈ s.cancelStart.log ↔ s.entry = some c ∨ .revoked c ∈ s.log := by
  cases he : s.entry <;> simp [State.cancelStart, State.deleteAction, he, eq_comm]

theorem Kept.cancelStart (h : s.Kept) : s.cancelStart.Kept where
  __ := h
  entry_some := by simp [State.cancelStart, State.deleteAction]
  own := by simp [State.cancelStart, State.deleteAction]
  held := by simp [State.cancelStart, State.deleteAction]
  entry_lt := by simp [State.cancelStart, State.deleteAction]
  start_lt := by simp [State.cancelStart, State.deleteAction]
  revoked_lt c hc := by
    rcases mem_log_cancelStart.mp hc with he | hc
    · exact h.entry_lt c he
    · exact h.revoked_lt c hc
  stopped c hc hr := by
    show c ∈ s.actionStartCancellable.toList ++ s.cancelled
    rcases mem_log_cancelStart.mp hc with he | hc
    · rw [h.held c he hr]
      simp
    · exact List.mem_append_right _ (h.stopped c hc hr)
  current := by simp [State.cancelStart, State.deleteAction]
  quiet := quiet_append_revoked h.quiet

theorem Kept.returnAction (h : s.Kept) (forSleep : Bool) : (s.returnAction forSleep).Kept := by
  unfold State.returnAction
  split
  · exact h.push rfl
  · exact h

theorem Kept.settleCancel (h : s.Kept) (reason : CancelReason) (returned : Bool) :
    (s.settleCancel reason returned).Kept := by
  unfold State.settleCancel
  split
  · exact h.push rfl
  · exact h

theorem Kept.syncInhibitor (h : s.Kept) (shouldInhibit sync ok : Bool) :
    (s.syncInhibitor shouldInhibit sync ok).Kept := by
  unfold State.syncInhibitor
  extract_lets inhibit s₁
  have h₁ : s₁.Kept := h.congr id rfl rfl rfl rfl rfl (Nat.le_succ _)
  split
  · exact h
  · split
    · split
      · exact h₁.congr id rfl rfl rfl rfl rfl (Nat.le_refl _)
      · exact h₁.push rfl
    · exact h₁.congr id rfl rfl rfl rfl rfl (Nat.le_refl _)

/-! ### An entry body that goes on -/

theorem InHand.not_revoked {c : Nat} (h : s.InHand c) (hc : ¬s.isCancelled c = true) :
    .revoked c ∉ s.log := by
  intro hr
  exact hc (by simpa [State.isCancelled] using h.stopped hr)

theorem bodyRunning_of_push_body {b : Body} {pc : BodyPc} {c : Nat}
    (h : (s.push (.body b pc)).BodyRunning c) : c = b.cancellable ∨ s.BodyRunning c := by
  rcases bodyRunning_push.mp h with hr | hr
  · exact Or.inl (Option.some.inj hr).symm
  · exact Or.inr hr

theorem nodup_push {t : Thread} {c : Nat} (h : s.Kept) (hb : s.InHand c)
    (ht : t.entryId = some c) : ((s.push t).threads.filterMap Thread.entryId).Nodup := by
  show (List.filterMap Thread.entryId (t :: s.threads)).Nodup
  rw [List.filterMap_cons_some ht]
  refine List.nodup_cons.mpr ⟨fun hmem => ?_, h.nodup⟩
  obtain ⟨u, hu, huc⟩ := List.mem_filterMap.mp hmem
  exact hb.out u hu huc

theorem thread_lt_push {t : Thread} {c : Nat} (h : s.Kept) (hb : s.InHand c)
    (ht : t.entryId = some c) :
    ∀ u ∈ (s.push t).threads, ∀ d, u.entryId = some d → d < s.nextId := by
  intro u hu d hd
  rcases List.mem_cons.mp hu with rfl | hu
  · rw [ht] at hd
    cases hd
    exact hb.lt
  · exact h.thread_lt u hu d hd

theorem Kept.pushBody (h : s.Kept) {b : Body} (hb : s.InHand b.cancellable) (pc : BodyPc) :
    (s.push (.body b pc)).Kept where
  __ := h
  held c hs hr := by
    rcases bodyRunning_of_push_body hr with rfl | hr
    · exact hb.held hs
    · exact h.held c hs hr
  thread_lt := thread_lt_push h hb rfl
  nodup := nodup_push h hb rfl
  stopped c hs hr := by
    rcases bodyRunning_of_push_body hr with rfl | hr
    · exact hb.stopped hs
    · exact h.stopped c hs hr

theorem Kept.finishBody (h : s.Kept) {b : Body} (hb : s.InHand b.cancellable) :
    (s.finishBody b).Kept := by
  have hrun : ∀ c, (s.finishBody b).BodyRunning c → s.BodyRunning c := by
    intro c hr
    rcases bodyRunning_push.mp hr with hr | hr
    · cases hr
    · exact hr
  exact {
    __ := h
    held := fun c hs hr => h.held c hs (hrun c hr)
    thread_lt := thread_lt_push h hb rfl
    nodup := nodup_push h hb rfl
    stopped := fun c hs hr => h.stopped c hs (hrun c hr)
    quiet := h.quiet }

def KeptWith (s : State) (b : Body) : Prop := s.Kept ∧ s.InHand b.cancellable

variable {b : Body}

section

variable (h : s.KeptWith b)
include h

theorem KeptWith.congr (ha : s'.isInAction.isSome → s.isInAction.isSome)
    (he : s'.entry = s.entry) (hc : s'.actionStartCancellable = s.actionStartCancellable)
    (ht : s'.threads = s.threads) (hx : s'.cancelled = s.cancelled) (hl : s'.log = s.log)
    (hn : s.nextId ≤ s'.nextId) : s'.KeptWith b :=
  ⟨h.1.congr ha he hc ht hx hl hn, h.2.congr he hc ht hx hl hn⟩

theorem KeptWith.emit {e : Effect} (hr : ∀ c, e ≠ .revoked c)
    (hby : ∀ c, e.by = some c → .revoked c ∉ s.log) : (s.emit e).KeptWith b :=
  ⟨h.1.emit hr hby, h.2.emit (hr _)⟩

theorem KeptWith.emitBy {e : Effect} (hr : ∀ c, e ≠ .revoked c)
    (hby : e.by = some b.cancellable) (hq : .revoked b.cancellable ∉ s.log) :
    (s.emit e).KeptWith b :=
  h.emit hr fun c hc => by
    rw [hby] at hc
    cases hc
    exact hq

theorem KeptWith.turnOffScreen (owner : Option Nat) :
    (s.turnOffScreen owner).KeptWith b :=
  h.congr id rfl rfl rfl rfl rfl (Nat.le_refl _)

theorem KeptWith.bodyWatch (hq : .revoked b.cancellable ∉ s.log) :
    (s.bodyWatch b).KeptWith b := by
  unfold State.bodyWatch
  split
  · exact h
  · exact ⟨h.1.installWatch _ (fun c hc => Option.some.inj hc ▸ hq), h.2.installWatch _⟩

theorem KeptWith.bodyShowLater (showLater : Bool) :
    (s.bodyShowLater b showLater).KeptWith b := by
  unfold State.bodyShowLater
  split
  · exact h.emit (by simp) (by simp [Effect.by])
  · exact h

end

theorem not_revoked_bodyWatch (hq : .revoked b.cancellable ∉ s.log) :
    .revoked b.cancellable ∉ (s.bodyWatch b).log := by
  unfold State.bodyWatch State.installWatch
  split
  · exact hq
  · split
    · exact hq
    · simpa using hq

section

variable (h : s.KeptWith b)
include h

theorem KeptWith.callLogind (hq : .revoked b.cancellable ∉ s.log) :
    (s.callLogind b).KeptWith b := by
  have hset : s.setSuspended.KeptWith b := h.congr id rfl rfl rfl rfl rfl (Nat.le_refl _)
  unfold State.callLogind
  dsimp only
  split
  · exact hset.emitBy (by simp) rfl hq
  · exact hset.emitBy (by simp) rfl hq

theorem KeptWith.pushBody (pc : BodyPc) : (s.push (.body b pc)).Kept :=
  h.1.pushBody h.2 pc

theorem KeptWith.finishBody : (s.finishBody b).Kept := h.1.finishBody h.2

theorem KeptWith.lockAndTurnOff (hq : .revoked b.cancellable ∉ s.log)
    (pc : Bool → BodyPc) : (s.lockAndTurnOff b pc).Kept := by
  unfold State.lockAndTurnOff
  dsimp only
  refine KeptWith.pushBody (KeptWith.turnOffScreen ?_ _) _
  split
  · exact h.emitBy (by simp) rfl hq
  · exact h

theorem KeptWith.resumeBody (pc : BodyPc) (answer : Bool) :
    (s.resumeBody b pc answer).Kept := by
  have hlive := h.2.not_revoked
  cases pc with
  | idleBlankFaded =>
      simp only [State.resumeBody]
      split
      · exact h.finishBody
      · exact h.pushBody _
  | idleBlankSlept =>
      simp only [State.resumeBody]
      split
      · exact h.finishBody
      · rename_i hc
        have hshown := (h.bodyWatch (hlive hc)).emit (e := .activateShield b.cancellable)
          (by simp) (by simp [Effect.by])
        split
        · exact hshown.pushBody _
        · exact hshown.finishBody
  | idleBlankLockDelay =>
      simp only [State.resumeBody]
      split
      · exact h.finishBody
      · rename_i hc
        exact (h.emitBy (by simp) rfl (hlive hc)).finishBody
  | blankFaded showLater =>
      have hshown := h.bodyShowLater showLater
      simp only [State.resumeBody]
      split
      · exact hshown.finishBody
      · exact hshown.pushBody _
  | blankSlept =>
      simp only [State.resumeBody]
      split
      · exact h.finishBody
      · rename_i hc
        exact (h.bodyWatch (hlive hc)).finishBody
  | canSleep =>
      simp only [State.resumeBody]
      split
      · exact h.finishBody
      · split
        · exact h.finishBody
        · rename_i hc
          exact h.lockAndTurnOff (hlive hc) _
  | sleepFaded showLater =>
      have hshown := h.bodyShowLater showLater
      simp only [State.resumeBody]
      split
      · exact hshown.finishBody
      · rename_i hc
        have hq := hshown.2.not_revoked hc
        exact ((hshown.bodyWatch hq).callLogind (not_revoked_bodyWatch hq)).pushBody _
  | sleepCalled =>
      simp only [State.resumeBody]
      split
      · exact h.finishBody
      · have hdel : s.turnOnScreen.deleteAction.KeptWith b :=
          have hhand : s.turnOnScreen.InHand b.cancellable :=
            h.2.congr rfl rfl rfl rfl rfl (Nat.le_refl _)
          ⟨h.1.turnOnScreen.deleteAction, hhand.deleteAction⟩
        exact KeptWith.finishBody (hdel.congr id rfl rfl rfl rfl rfl (Nat.le_refl _))
  | forcedPainted =>
      simp only [State.resumeBody]
      split
      · exact h.finishBody
      · exact (h.turnOffScreen _).pushBody _
  | forcedFaded =>
      simp only [State.resumeBody]
      split
      · exact h.finishBody
      · rename_i hc
        exact (h.bodyWatch (hlive hc)).finishBody

end

/-! ### The functions -/

section

variable (h : s.Kept)
include h

variable (action : Action)

theorem Kept.startAction (watchEarly forSleep : Bool) :
    (s.startAction action watchEarly forSleep).Kept := by
  unfold State.startAction
  extract_lets s₁ c
  have h₁ : s₁.Kept := by
    unfold s₁
    split
    · exact h.installWatch _ (by simp)
    · exact h
  have hn : s₁.nextId = c := rfl
  have hrun : ¬s₁.BodyRunning c := by
    rintro ⟨t, ht, hc⟩
    exact absurd (h₁.thread_lt t ht c (Thread.entryId_of_running hc)) (by omega)
  have hrevoked : .revoked c ∉ s₁.log := fun hr => absurd (h₁.revoked_lt c hr) (by omega)
  set s₂ := { s₁ with
    nextId := c + 1
    actionStartCancellable := some c
    isInAction := some action
    entry := some c
    woken := false } with hs₂
  have h₂ : s₂.KeptWith ⟨action, c, watchEarly, forSleep⟩ := by
    refine ⟨?_, ?_⟩
    · exact {
        __ := h₁
        entry_some := fun _ => rfl
        own := fun d hd => Or.inr hd
        held := fun d hd hr => hd
        entry_lt := fun d hd => by cases hd; exact Nat.lt_succ_self c
        start_lt := fun d hd => by cases hd; exact Nat.lt_succ_self c
        thread_lt := fun t ht d hd => Nat.lt_succ_of_lt (h₁.thread_lt t ht d hd)
        revoked_lt := fun d hd => Nat.lt_succ_of_lt (h₁.revoked_lt d hd)
        current := fun d hd he => by cases he; exact hrevoked hd
        quiet := h₁.quiet }
    · exact {
        out := fun t ht hc => absurd (h₁.thread_lt t ht c hc) (by omega)
        lt := Nat.lt_succ_self c
        stopped := fun hr => absurd hr hrevoked
        held := fun _ => rfl }
  have hq : .revoked c ∉ s₂.log := hrevoked
  cases action with
  | dim => exact KeptWith.finishBody (h₂.congr id rfl rfl rfl rfl rfl (Nat.le_refl _))
  | idleBlank => exact (h₂.turnOffScreen _).pushBody _
  | blank => exact h₂.lockAndTurnOff hq _
  | suspend => exact h₂.pushBody _
  | suspendForced =>
      have h₃ : s₂.setSuspended.KeptWith ⟨.suspendForced, c, watchEarly, forSleep⟩ :=
        h₂.congr id rfl rfl rfl rfl rfl (Nat.le_refl _)
      simp only [enterBody]
      split
      · exact (h₃.emitBy (by simp) rfl hq).pushBody _
      · exact (h₃.turnOffScreen _).pushBody _
  | hibernate => exact h₂.pushBody _
  | shutdown => exact h₂.finishBody
  | logout => exact h₂.finishBody
  | nothing => exact h₂.finishBody

theorem Kept.upgrade : (s.upgrade action).Kept := by
  unfold State.upgrade
  split
  · exact h.cancelStart
  · exact h

theorem Kept.enterAction (watchEarly forSleep : Bool) :
    (s.enterAction action watchEarly forSleep).Kept := by
  unfold State.enterAction
  split
  · exact h.returnAction _
  · split
    · exact h.returnAction _
    · split
      · exact h.throw _
      · split
        · exact h.throw _
        · split
          · exact h.returnAction _
          · exact h.startAction _ _ _

theorem Kept.doSystemAction (watchEarly forSleep : Bool) :
    (s.doSystemAction action watchEarly forSleep).Kept := by
  unfold State.doSystemAction
  split
  · exact Kept.push (s := { s with newActionQueued := true })
      (h.congr id rfl rfl rfl rfl rfl (Nat.le_refl _)) rfl
  · exact (h.upgrade action).enterAction _ _ _

theorem Kept.resumeQueued (watchEarly forSleep : Bool) :
    (s.resumeQueued action watchEarly forSleep).Kept := by
  unfold State.resumeQueued
  split
  · exact h.returnAction _
  · have h' : { s with newActionQueued := false }.Kept :=
      h.congr id rfl rfl rfl rfl rfl (Nat.le_refl _)
    exact (h'.upgrade action).enterAction _ _ _

theorem Kept.tearDown (ongoing : Action) : (s.tearDown ongoing).Kept := by
  unfold State.tearDown
  extract_lets s₁ s₂ s₃ s₄
  have h₁ : s₁.Kept := h.cancelStart
  have h₂ : s₂.Kept := by
    unfold s₂
    split
    · exact h₁.congr id rfl rfl rfl rfl rfl (Nat.le_refl _)
    · exact h₁.congr id rfl rfl rfl rfl rfl (Nat.le_refl _)
  have h₃ : s₃.Kept := h₂.congr id rfl rfl rfl rfl rfl (Nat.le_refl _)
  split
  · exact h₁.throw _
  · cases ongoing with
    | dim => exact h₂.congr id rfl rfl rfl rfl rfl (Nat.le_refl _)
    | idleBlank =>
        refine Kept.turnOnScreen ?_
        unfold s₄
        split
        · exact h₃.emit (by simp) (by simp [Effect.by])
        · exact h₃
    | blank => exact h₃.turnOnScreen
    | suspend | suspendForced =>
        exact Kept.turnOnScreen (h₂.congr id rfl rfl rfl rfl rfl (Nat.le_refl _))
    | hibernate => exact h₂.turnOnScreen
    | shutdown | logout | nothing => exact h₂

theorem Kept.maybeCancelAction (reason : CancelReason) :
    (s.maybeCancelAction reason).Kept := by
  unfold State.maybeCancelAction
  split
  · exact h.throw _
  · rename_i ongoing _
    split
    · exact h.settleCancel _ _
    · split
      · split
        · exact Kept.settleCancel (s := { s with newActionQueued := false })
            (h.congr id rfl rfl rfl rfl rfl (Nat.le_refl _)) _ _
        · exact h.settleCancel _ _
      · have htorn : (s.tearDown ongoing).lockCancelling.Kept := (h.tearDown ongoing).lockCancelling
        cases reason with
        | powerButtonPress | sessionInactive => exact htorn.push rfl
        | suspendWakeup =>
            dsimp only
            split
            · exact (h.throw _).lockCancelling.push rfl
            · split
              · exact (h.throw _).lockCancelling.push rfl
              · exact h.lockCancelling.push rfl
        | userActive =>
            dsimp only
            split
            · exact htorn.push rfl
            · exact h.lockCancelling.push rfl

theorem Kept.resumeCancel (reason : CancelReason) (ongoing : Action) (near : Bool) :
    (s.resumeCancel reason ongoing near).Kept := by
  unfold State.resumeCancel
  split
  · dsimp only
    refine Kept.settleCancel ?_ _ _
    split
    · exact (h.installWatch none (by simp)).congr id rfl rfl rfl rfl rfl (Nat.le_refl _)
    · exact h.congr id rfl rfl rfl rfl rfl (Nat.le_refl _)
  · have htorn : { s.tearDown ongoing with cancellingActionLock := none }.Kept :=
      (h.tearDown ongoing).congr id rfl rfl rfl rfl rfl (Nat.le_refl _)
    dsimp only
    split
    · exact htorn.settleCancel _ _
    · exact htorn

theorem Kept.afterSleepAction : s.afterSleepAction.Kept := by
  unfold State.afterSleepAction
  split
  · exact h
  · split
    · exact h
    · split
      · exact h.throw _
      · exact h.syncInhibitor _ _ _

theorem Kept.prepareForSleep (aboutToSuspend ok : Bool) :
    (s.prepareForSleep aboutToSuspend ok).Kept := by
  unfold State.prepareForSleep
  extract_lets s₁ s₂ s₃ s₄
  have h₁ : s₁.Kept := h.congr id rfl rfl rfl rfl rfl (Nat.le_refl _)
  have h₂ : s₂.Kept := h.congr id rfl rfl rfl rfl rfl (Nat.le_refl _)
  have h₃ : s₃.Kept := h₂.syncInhibitor _ _ _
  have h₄ : s₄.Kept := h₃.congr id rfl rfl rfl rfl rfl (Nat.le_refl _)
  split
  · split
    · exact h₁.doSystemAction _ _ _
    · split
      · exact h₁.doSystemAction _ _ _
      · exact h₁.afterSleepAction
  · split
    · exact h₄.maybeCancelAction _
    · exact h₄.turnOnScreen

theorem Kept.onUserActive (powerKey : Bool) : (s.onUserActive powerKey).Kept := by
  unfold State.onUserActive
  extract_lets s₁ s₂
  have h₁ : s₁.Kept := h.congr id rfl rfl rfl rfl rfl (Nat.le_refl _)
  have h₂ : s₂.Kept := h₁.congr id rfl rfl rfl rfl rfl (Nat.le_refl _)
  split
  · exact h₁.congr id rfl rfl rfl rfl rfl (Nat.le_refl _)
  · split
    · exact h₁.throw _
    · split
      · exact h₂.push rfl
      · exact h₂.maybeCancelAction _

theorem Kept.resumeUserActive (cancelled : Bool) :
    (s.resumeUserActive cancelled).Kept := by
  unfold State.resumeUserActive
  split
  · exact h
  · split
    · exact h
    · exact h.installWatch _ (by simp)

theorem Kept.powerButtonPress : s.powerButtonPress.Kept := by
  unfold State.powerButtonPress
  split
  · exact h
  · split
    · exact h.maybeCancelAction _
    · exact h

theorem Kept.sessionIsActiveChanged (active : Bool) :
    (s.sessionIsActiveChanged active).Kept := by
  unfold State.sessionIsActiveChanged
  have h₁ : { s with sessionIsActive := active }.Kept :=
    h.congr id rfl rfl rfl rfl rfl (Nat.le_refl _)
  split
  · exact h
  · dsimp only
    split
    · exact h₁.maybeCancelAction _
    · exact h₁

theorem Kept.resumeWakeUp (near : Bool) : (s.resumeWakeUp near).Kept := by
  unfold State.resumeWakeUp
  split
  · exact h
  · split
    · exact h
    · exact Kept.turnOnScreen (h.congr id rfl rfl rfl rfl rfl (Nat.le_refl _))

theorem Kept.resumeSuspendAgain (ongoing : Action) (near : Bool) :
    (s.resumeSuspendAgain ongoing near).Kept := by
  unfold State.resumeSuspendAgain
  split
  · exact h.throw _
  · rename_i ha
    split
    · exact h.congr (fun _ => by simp_all) rfl rfl rfl rfl rfl (Nat.le_refl _)
    · exact (h.setSuspended.emit (by simp) (by simp [Effect.by])).push rfl

theorem Kept.suspendAgainFailed : s.suspendAgainFailed.Kept := by
  have hdel : { s.deleteAction with suspended := false }.Kept :=
    h.deleteAction.congr id rfl rfl rfl rfl rfl (Nat.le_refl _)
  exact hdel.turnOnScreen

theorem Kept.resumeBodyFinally (halone : ¬s.RecordedRunning) (b : Body) :
    (s.resumeBodyFinally b).Kept := by
  have hidle : ∀ c, s.entry = some c → ¬s.BodyRunning c := by
    rintro c hc ⟨t, ht, htc⟩
    exact halone ⟨t, ht, by simp [htc], by rw [htc, hc]⟩
  have hcleared : { s with actionStartCancellable := none }.Kept := {
    __ := h
    own := fun _ _ => Or.inl rfl
    held := fun c hc hr => absurd hr (hidle c hc)
    start_lt := by simp
    quiet := h.quiet }
  exact hcleared.returnAction _

end

/-! ### Taking a continuation out of the pool -/

theorem bodyRunning_of_rest {t : Thread} {rest : List Thread} {i c : Nat}
    (htake : Runs.take s.threads i = some (t, rest))
    (hr : { s with threads := rest }.BodyRunning c) : s.BodyRunning c := by
  obtain ⟨u, hu, huc⟩ := hr
  exact ⟨u, Runs.mem_of_take htake hu, huc⟩

section

variable (h : s.Kept)
include h

theorem Kept.rest {t : Thread} {rest : List Thread} {i : Nat}
    (htake : Runs.take s.threads i = some (t, rest)) : { s with threads := rest }.Kept where
  __ := h
  held c hs hr := h.held c hs (bodyRunning_of_rest htake hr)
  thread_lt u hu := h.thread_lt u (Runs.mem_of_take htake hu)
  nodup :=
    (Runs.nodup_filterMap_take Thread.entryId htake h.nodup).sublist
      ((List.sublist_cons_self t rest).filterMap Thread.entryId)
  stopped c hs hr := h.stopped c hs (bodyRunning_of_rest htake hr)

theorem Kept.out_rest {t : Thread} {rest : List Thread} {i c : Nat}
    (htake : Runs.take s.threads i = some (t, rest)) (ht : t.entryId = some c) :
    ∀ u ∈ rest, u.entryId ≠ some c := by
  intro u hu huc
  have hnodup := Runs.nodup_filterMap_take Thread.entryId htake h.nodup
  rw [List.filterMap_cons_some ht] at hnodup
  exact (List.nodup_cons.mp hnodup).1 (List.mem_filterMap.mpr ⟨u, hu, huc⟩)

theorem Kept.inHand_body {b : Body} {pc : BodyPc} {rest : List Thread} {i : Nat}
    (htake : Runs.take s.threads i = some (.body b pc, rest)) :
    { s with threads := rest }.InHand b.cancellable := by
  have hmem := Runs.take_mem htake
  have hr : s.BodyRunning b.cancellable := ⟨_, hmem, rfl⟩
  exact {
    out := h.out_rest htake rfl
    lt := h.thread_lt _ hmem _ rfl
    stopped := fun hs => h.stopped _ hs hr
    held := fun hs => h.held _ hs hr }

theorem Kept.resumeThread {t : Thread} {rest : List Thread} {i : Nat}
    (htake : Runs.take s.threads i = some (t, rest)) (answer : Bool)
    (halone : t.isFinally → ¬s.RecordedRunning) :
    ({ s with threads := rest }.resumeThread t answer).Kept := by
  have hrest := h.rest htake
  cases t with
  | queued lock action watchEarly forSleep => exact hrest.resumeQueued _ _ _
  | body b pc => exact KeptWith.resumeBody ⟨hrest, h.inHand_body htake⟩ pc answer
  | bodyFinally b =>
      refine hrest.resumeBodyFinally (fun hr => halone rfl ?_) b
      obtain ⟨u, hu, hur⟩ := hr
      exact ⟨u, Runs.mem_of_take htake hu, hur⟩
  | cancelPocket lock reason ongoing => exact hrest.resumeCancel _ _ _
  | cancelFinally lock reason returned =>
      have hfree : { s with threads := rest, cancellingActionLock := none }.Kept :=
        hrest.congr id rfl rfl rfl rfl rfl (Nat.le_refl _)
      simp only [State.resumeThread]
      split
      · exact hfree.settleCancel _ _
      · exact hfree
  | userActive cancelled => exact hrest.resumeUserActive _
  | powerKeyPress => exact hrest.powerButtonPress
  | sleepAction => exact hrest.afterSleepAction
  | suspendAgainPocket ongoing => exact hrest.resumeSuspendAgain _ _
  | suspendAgainCall =>
      simp only [State.resumeThread]
      split
      · exact hrest
      · exact hrest.suspendAgainFailed
  | wakeUpPocket => exact hrest.resumeWakeUp _
  | inhibit c =>
      simp only [State.resumeThread]
      split
      · exact hrest.congr id rfl rfl rfl rfl rfl (Nat.le_refl _)
      · exact hrest

/-- **The step lemma.** -/
theorem Kept.step {e : Event} (halone : s.FinallyAlone e)
    (hstep : step s e = some s') : s'.Kept := by
  cases e with
  | doSystemAction action watchEarly =>
      cases hstep
      exact h.doSystemAction _ _ _
  | powerButtonPress =>
      cases hstep
      exact h.powerButtonPress
  | sessionIsActiveChanged active =>
      cases hstep
      exact h.sessionIsActiveChanged _
  | prepareForSleep aboutToSuspend ok =>
      cases hstep
      exact h.prepareForSleep _ _
  | userActive powerKey =>
      obtain ⟨-, rfl⟩ := Option.ite_some_none_eq_some.mp hstep
      exact h.onUserActive _
  | ignoreInputTimeout =>
      obtain ⟨-, hsome⟩ := Option.ite_none_left_eq_some.mp hstep
      cases hsome
      exact h.congr id rfl rfl rfl rfl rfl (Nat.le_refl _)
  | suspendAgainTimeout =>
      obtain ⟨ongoing, -, rfl⟩ := Option.map_eq_some_iff.mp hstep
      exact Kept.push (s := { s with suspendAgainTimeout := none })
        (h.congr id rfl rfl rfl rfl rfl (Nat.le_refl _)) rfl
  | wakeUpScreen =>
      cases hstep
      split
      · exact h.push rfl
      · exact h
  | notificationTimeout =>
      obtain ⟨-, rfl⟩ := Option.ite_some_none_eq_some.mp hstep
      exact (h.turnOffScreen none).congr id rfl rfl rfl rfl rfl (Nat.le_refl _)
  | deferredIdleBlankTimeout =>
      obtain ⟨-, rfl⟩ := Option.ite_some_none_eq_some.mp hstep
      exact (h.doSystemAction _ _ _).congr id rfl rfl rfl rfl rfl (Nat.le_refl _)
  | loginSessionChanged active =>
      cases hstep
      exact Kept.syncInhibitor (s := { s with loginSessionActive := active })
        (h.congr id rfl rfl rfl rfl rfl (Nat.le_refl _)) _ _ _
  | envChanged env =>
      cases hstep
      exact h.congr id rfl rfl rfl rfl rfl (Nat.le_refl _)
  | lightboxStopped =>
      obtain ⟨screen, -, rfl⟩ := Option.map_eq_some_iff.mp hstep
      exact h.congr id rfl rfl rfl rfl rfl (Nat.le_refl _)
  | resumeScreen i ok brightness =>
      obtain ⟨screen, -, rfl⟩ := Option.map_eq_some_iff.mp hstep
      exact h.congr id rfl rfl rfl rfl rfl (Nat.le_refl _)
  | resume i answer =>
      obtain ⟨⟨t, rest⟩, htake, hready⟩ := Option.bind_eq_some_iff.mp hstep
      obtain ⟨-, rfl⟩ := Option.ite_some_none_eq_some.mp hready
      refine h.resumeThread htake answer fun ht => halone ?_
      rw [Runs.getElem?_of_take htake]
      exact ht

end

/-! ## The result -/

/-- **Cancelled actions stop.** In every run in which no `finally` handler of an entry body runs
while the recorded action's entry body is running, `_actionStartCancellable` is the recorded
action's, and no cancelled or replaced entry body locks, watches or suspends. -/
theorem cancellableKept_of_reach {s : State}
    (hreach : Runs.Reach PowerManager.step FinallyAlone State.init s) : s.CancellableKept :=
  (hreach.invariant kept_init fun _ _ _ h hok hstep => h.step hok hstep).toCancellableKept

def cancelledBlank : List Event :=
  [.doSystemAction .blank false, .powerButtonPress, .resume 0 true, .resumeScreen 0 true 100,
    .resumeScreen 0 true 100, .resume 0 true, .resume 0 true]

theorem cancellableKept_cancelledBlank :
    ∃ s, Runs.run PowerManager.step State.init cancelledBlank = some s ∧ s.CancellableKept :=
  ⟨_, rfl, cancellableKept_of_reach (Runs.Reach.of_run cancelledBlank (by decide) rfl)⟩

/-- A blank is upgraded to suspend. The blank's body returns while logind is still asked whether
it can suspend, so its `finally` handler deletes the cancellable of the suspend; the power button
then cancels the suspend without reaching its body. -/
def staleFinally : List Event :=
  [.doSystemAction .blank false, .doSystemAction .suspend false,
    .lightboxStopped, .resumeScreen 0 true 100, .resumeScreen 0 true 100, .resumeScreen 0 true 100,
    .resume 1 true, .resume 0 true, .powerButtonPress, .resume 0 true, .resume 0 true,
    .lightboxStopped, .resumeScreen 0 true 100, .resumeScreen 0 true 100, .resumeScreen 0 true 100,
    .resume 0 true]

/-- After the cancel the body locks the screen, installs a watch and suspends the device. -/
theorem not_cancellableKept_staleFinally :
    ∃ s, Runs.run PowerManager.step State.init staleFinally = some s ∧ s.isInAction = none ∧
      s.log = [.logindSuspend (some 1), .userActiveWatch (some 1), .showLater 1, .lock 1,
        .revoked 1, .showLater 0, .revoked 0, .lock 0] ∧
      ¬s.CancellableKept := by
  refine ⟨_, rfl, rfl, rfl, fun h => ?_⟩
  exact h.quiet.1 1 rfl (by decide)

end State

end PowerManager
