import GnomeShellMobile.Screencast.Service

/-!
# Screencast — who is registered

* Unregistering: only the recorder that ends (`Inv.unregister`).
* Runs: `run_recorders`, with one lemma for each part of a step (`Inv.update`, `Inv.answer`,
  `Inv.addRecorder`, `Inv.removeRecorder`).
-/

namespace Screencast

variable {s : State} {e : Event} {id : ℕ} {sender : ℕ}

namespace State

@[simp] theorem removeRecorder_recorders (s : State) (sender : ℕ) :
    (s.removeRecorder sender).recorders = s.recorders := by
  unfold removeRecorder
  cases s.registered.get? sender <;> rfl

@[simp] theorem removeRecorder_answers (s : State) (sender : ℕ) :
    (s.removeRecorder sender).answers = s.answers := by
  unfold removeRecorder
  cases s.registered.get? sender <;> rfl

theorem removeRecorder_get? (s : State) (sender k : ℕ) :
    (s.removeRecorder sender).registered.get? k =
      if k = sender then none else s.registered.get? k := by
  unfold removeRecorder
  cases hget : s.registered.get? sender with
  | none =>
    show s.registered.get? k = _
    split
    · next heq => rw [heq, hget]
    · rfl
  | some id => exact Dict.get?_erase _ _ _

end State

structure Inv (s : State) : Prop where
  sound : ∀ (id : ℕ) (r : Recorder), s.recorders[id]? = some r → r.Sound
  active : ∀ (id : ℕ) (r : Recorder), s.recorders[id]? = some r → r.sessionState = .active →
    s.registered.get? r.sender = some id
  registered : ∀ sender id, s.registered.get? sender = some id →
    ∃ r, s.recorders[id]? = some r ∧ r.sender = sender
  unfinished : ∀ (id : ℕ) (r : Recorder), s.recorders[id]? = some r → ¬r.Finished →
    ∀ j, s.registered.get? r.sender = some j → j = id
  starts : ∀ id, Request.start id ∈ s.answers →
    ∃ r, s.recorders[id]? = some r ∧ r.start = .done
  stops : ∀ id i, Request.stop id i ∈ s.answers →
    ∃ r : Recorder, s.recorders[id]? = some r ∧ r.stops[i]? = some .done
  once : s.answers.Nodup
  held : s.holds = if s.registered.size = 0 then 0 else 1

theorem Inv.law (h : Inv s) : Law s where
  __ := h
  settled id r hget hsession := by
    cases h.sound id r hget with
    | starting hstarting => exact absurd hstarting.session hsession
    | running hrunning => exact absurd hrunning.session hsession
    | ended hended => exact ⟨hended.start, hended.stops⟩

theorem inv_new : Inv .new where
  sound _ _ hget := by cases hget
  active _ _ hget := by cases hget
  registered _ _ hget := by cases hget
  unfinished _ _ hget := by cases hget
  starts _ hmem := by cases hmem
  stops _ _ hmem := by cases hmem
  once := List.nodup_nil
  held := rfl

section

variable (h : Inv s)
include h

theorem Inv.update {r r' : Recorder}
    (hget : s.recorders[id]? = some r) (hfollows : Recorder.Follows r r')
    (hunfinished : ¬r'.Finished → ∀ j, s.registered.get? r.sender = some j → j = id) :
    Inv { s with recorders := s.recorders.set id r' } := by
  have hself : (s.recorders.set id r')[id]? = some r' :=
    List.getElem?_set_self (List.getElem?_eq_some_iff.mp hget).1
  have hother : ∀ j, j ≠ id → (s.recorders.set id r')[j]? = s.recorders[j]? := fun j hne =>
    List.getElem?_set_ne hne.symm
  refine ⟨fun j u hj => ?_, fun j u hj hactive => ?_, fun sender j hj => ?_,
    fun j u hj hnot k hk => ?_, fun j hmem => ?_, fun j i hmem => ?_, h.once, h.held⟩
  · by_cases heq : j = id
    · subst heq
      cases hself.symm.trans hj
      exact hfollows.sound
    · exact h.sound j u ((hother j heq).symm.trans hj)
  · by_cases heq : j = id
    · subst heq
      cases hself.symm.trans hj
      rw [hfollows.sender]
      exact h.active j r hget (hfollows.active hactive)
    · exact h.active j u ((hother j heq).symm.trans hj) hactive
  · obtain ⟨u, hu, hsender⟩ := h.registered sender j hj
    by_cases heq : j = id
    · subst heq
      cases hget.symm.trans hu
      exact ⟨r', hself, hfollows.sender.trans hsender⟩
    · exact ⟨u, (hother j heq).trans hu, hsender⟩
  · by_cases heq : j = id
    · subst heq
      cases hself.symm.trans hj
      rw [hfollows.sender] at hk
      exact hunfinished hnot k hk
    · exact h.unfinished j u ((hother j heq).symm.trans hj) hnot k hk
  · obtain ⟨u, hu, hdone⟩ := h.starts j hmem
    by_cases heq : j = id
    · subst heq
      cases hget.symm.trans hu
      exact ⟨r', hself, hfollows.start hdone⟩
    · exact ⟨u, (hother j heq).trans hu, hdone⟩
  · obtain ⟨u, hu, hdone⟩ := h.stops j i hmem
    by_cases heq : j = id
    · subst heq
      cases hget.symm.trans hu
      exact ⟨r', hself, hfollows.stops i hdone⟩
    · exact ⟨u, (hother j heq).trans hu, hdone⟩

theorem Inv.answer {request : Request} (hnew : request ∉ s.answers)
    (hstart : ∀ id, request = .start id → ∃ r, s.recorders[id]? = some r ∧ r.start = .done)
    (hstop : ∀ id i, request = .stop id i →
      ∃ r : Recorder, s.recorders[id]? = some r ∧ r.stops[i]? = some .done) :
    Inv { s with answers := s.answers ++ [request] } := by
  refine ⟨h.sound, h.active, h.registered, h.unfinished, fun id hmem => ?_, fun id i hmem => ?_, ?_,
    h.held⟩
  · rcases List.mem_append.mp hmem with hmem | hmem
    · exact h.starts id hmem
    · exact hstart id (List.mem_singleton.mp hmem).symm
  · rcases List.mem_append.mp hmem with hmem | hmem
    · exact h.stops id i hmem
    · exact hstop id i (List.mem_singleton.mp hmem).symm
  · exact List.nodup_append.mpr ⟨h.once, List.nodup_singleton request, fun a ha b hb heq => by
      rw [List.mem_singleton.mp hb] at heq
      exact hnew (heq ▸ ha)⟩

theorem Inv.removeRecorder
    (hidle : ∀ (id : ℕ) (r : Recorder), s.recorders[id]? = some r → r.sender = sender →
      r.sessionState ≠ .active) : Inv (s.removeRecorder sender) := by
  have hleft : ∀ k j, (s.removeRecorder sender).registered.get? k = some j →
      s.registered.get? k = some j := by
    intro k j hj
    rw [State.removeRecorder_get?] at hj
    split at hj
    · cases hj
    · exact hj
  refine ⟨?_, ?_, ?_, ?_, ?_, ?_, ?_, ?_⟩
  · rw [State.removeRecorder_recorders]
    exact h.sound
  · rw [State.removeRecorder_recorders]
    intro id r hget hactive
    have hne : r.sender ≠ sender := fun heq => hidle id r hget heq hactive
    rw [State.removeRecorder_get?, if_neg hne]
    exact h.active id r hget hactive
  · rw [State.removeRecorder_recorders]
    exact fun k j hj => h.registered k j (hleft k j hj)
  · rw [State.removeRecorder_recorders]
    exact fun id r hget hnot j hj => h.unfinished id r hget hnot j (hleft r.sender j hj)
  · rw [State.removeRecorder_recorders, State.removeRecorder_answers]
    exact h.starts
  · rw [State.removeRecorder_recorders, State.removeRecorder_answers]
    exact h.stops
  · rw [State.removeRecorder_answers]
    exact h.once
  · unfold State.removeRecorder
    cases hget : s.registered.get? sender with
    | none => exact h.held
    | some id =>
      have hsize : s.registered.size ≠ 0 := fun hzero => by
        cases hget.symm.trans (Dict.get?_of_size_eq_zero hzero sender)
      have hholds : s.holds = 1 := by rw [h.held, if_neg hsize]
      show (if (s.registered.erase sender).size = 0 then s.holds - 1 else s.holds) = _
      rw [hholds]

theorem Inv.unregister {r : Recorder}
    (hget : s.recorders[id]? = some r) (hended : r.sessionState ≠ .active)
    (hself : ∀ j, s.registered.get? r.sender = some j → j = id) :
    Inv (s.removeRecorder r.sender) := by
  refine h.removeRecorder fun j u hj hsender hactive => ?_
  have hregistered := h.active j u hj hactive
  rw [hsender] at hregistered
  obtain rfl := hself j hregistered
  cases hget.symm.trans hj
  exact hended hactive

theorem Inv.addRecorder (started : Bool) (hfree : s.registered.get? sender = none)
    (hfinished : ∀ r ∈ s.recorders, r.sender = sender → r.Finished) :
    Inv ({ s with recorders := s.recorders ++ [Recorder.new sender started] }.addRecorder sender
      s.recorders.length) := by
  have hcases : ∀ (id : ℕ) (r : Recorder),
      (s.recorders ++ [Recorder.new sender started])[id]? = some r →
        s.recorders[id]? = some r ∨ id = s.recorders.length ∧ r = Recorder.new sender started := by
    intro id r hget
    rw [List.getElem?_append] at hget
    split at hget
    · exact .inl hget
    · next hlt =>
      rw [List.getElem?_singleton] at hget
      split at hget
      · next hzero =>
        cases hget
        exact .inr ⟨by omega, rfl⟩
      · cases hget
  have hold : ∀ (id : ℕ) (r : Recorder), s.recorders[id]? = some r →
      (s.recorders ++ [Recorder.new sender started])[id]? = some r := fun id r hget =>
    (List.getElem?_append_left (List.getElem?_eq_some_iff.mp hget).1).trans hget
  have hset : ∀ k, (s.registered.set sender s.recorders.length).get? k =
      if k = sender then some s.recorders.length else s.registered.get? k := fun k =>
    Dict.get?_set _ _ _ _
  refine ⟨fun id r hget => ?_, fun id r hget hactive => ?_, fun k id hk => ?_,
    fun id r hget hnot j hj => ?_, fun id hmem => ?_, fun id i hmem => ?_, h.once, ?_⟩
  · rcases hcases id r hget with hget | ⟨-, rfl⟩
    · exact h.sound id r hget
    · exact Recorder.new_sound sender started
  · refine (hset r.sender).trans ?_
    rcases hcases id r hget with hget | ⟨rfl, rfl⟩
    · have hregistered := h.active id r hget hactive
      have hne : r.sender ≠ sender := fun heq => by
        rw [heq, hfree] at hregistered
        cases hregistered
      rw [if_neg hne]
      exact hregistered
    · exact if_pos rfl
  · replace hk := (hset k).symm.trans hk
    split at hk
    · next heq =>
      cases hk
      exact ⟨_, List.getElem?_concat_length, heq.symm⟩
    · obtain ⟨r, hget, hsender⟩ := h.registered k id hk
      exact ⟨r, hold id r hget, hsender⟩
  · replace hj := (hset r.sender).symm.trans hj
    rcases hcases id r hget with hget | ⟨rfl, rfl⟩
    · split at hj
      · next heq => exact absurd (hfinished r (List.mem_of_getElem? hget) heq) hnot
      · exact h.unfinished id r hget hnot j hj
    · exact (Option.some.inj ((if_pos rfl).symm.trans hj)).symm
  · obtain ⟨r, hget, hdone⟩ := h.starts id hmem
    exact ⟨r, hold id r hget, hdone⟩
  · obtain ⟨r, hget, hdone⟩ := h.stops id i hmem
    exact ⟨r, hold id r hget, hdone⟩
  · show (if (s.registered.set sender _).size = 1 then s.holds + 1 else s.holds) =
      if (s.registered.set sender _).size = 0 then 0 else 1
    rw [Dict.size_set_of_get?_eq_none hfree, if_neg (Nat.succ_ne_zero _), h.held]
    cases s.registered.size with
    | zero => rfl
    | succ n => exact (if_neg (by omega)).trans (if_neg (Nat.succ_ne_zero n))

end

/-! ## Steps -/

/-- All registrations stay, but maybe that of the recorder `e` is about. -/
def Unregisters (s : State) (e : Event) (t : State) : Prop :=
  ∀ sender id, s.registered.get? sender = some id →
    t.registered.get? sender = some id ∨
      t.registered.get? sender = none ∧ e.recorder = some id

theorem unregisters_removeRecorder {s t : State} {id sender : ℕ}
    (hregistered : t.registered = s.registered) (hid : e.recorder = some id)
    (hself : ∀ j, s.registered.get? sender = some j → j = id) :
    Unregisters s e (t.removeRecorder sender) := by
  intro k j hj
  rw [State.removeRecorder_get?, hregistered]
  split
  · next heq =>
    rw [heq] at hj
    exact .inr ⟨rfl, hid.trans (congrArg some (hself j hj).symm)⟩
  · exact .inl hj

theorem Recorder.advance_on {r r' : Recorder} {signal : Signal} {emitted : Bool} (h : r.Sound)
    (hcurrent : ∀ p message, signal = .message p message → r.Current p message)
    (hon : r.on signal = some (r', emitted)) : Advance r r' emitted := by
  cases signal with
  | streamAdded configs =>
    cases hstreamed : r.streamed with
    | true =>
      simp only [on, hstreamed, if_true] at hon
      cases hon
    | false =>
      simp only [on, hstreamed, Bool.false_eq_true, if_false, Option.some.injEq] at hon
      have hadvance := advance_streamAdded h hstreamed configs
      rw [hon] at hadvance
      exact hadvance
  | senderVanished =>
    cases hwatched : r.watched with
    | true =>
      simp only [on, hwatched, if_true, Option.some.injEq] at hon
      have hadvance := advance_senderVanished h hwatched
      rw [hon] at hadvance
      exact hadvance
    | false =>
      simp only [on, hwatched, Bool.false_eq_true, if_false] at hon
      cases hon
  | sessionClosed =>
    have hadvance := advance_onSessionClosed h
    rw [Option.some.inj hon] at hadvance
    exact hadvance
  | message p message =>
    have hadvance := advance_onBusMessage h (hcurrent p message rfl)
    simp only [on, Option.ite_none_right_eq_some, Option.some.injEq] at hon
    rw [hon.2] at hadvance
    exact hadvance

section

variable (h : Inv s)
include h

theorem Inv.react {r r' : Recorder} {emitted : Bool}
    (hid : e.recorder = some id) (hget : s.recorders[id]? = some r)
    (hadvance : Recorder.Advance r r' emitted) :
    Inv (s.react id r' emitted) ∧ Unregisters s e (s.react id r' emitted) := by
  have hupdate := h.update hget hadvance.follows fun hnot j hj =>
    h.unfinished id r hget (fun hfinished => hnot (hadvance.finished hfinished)) j hj
  unfold State.react
  dsimp only
  split
  · next hheard =>
    obtain ⟨hactive, hended⟩ :=
      hadvance.emitted hheard.1 (hadvance.listened.symm.trans hheard.2)
    have hself : ∀ j, s.registered.get? r'.sender = some j → j = id := by
      intro j hj
      rw [hadvance.sender, h.active id r hget hactive] at hj
      exact (Option.some.inj hj).symm
    have hset : (s.recorders.set id r')[id]? = some r' :=
      List.getElem?_set_self (List.getElem?_eq_some_iff.mp hget).1
    exact ⟨hupdate.unregister hset hended hself, unregisters_removeRecorder rfl hid hself⟩
  · exact ⟨hupdate, fun _ _ hj => .inl hj⟩

theorem Inv.startSettled {r : Recorder}
    {resolved : Bool} (hid : e.recorder = some id) (hget : s.recorders[id]? = some r)
    (hstart : r.start = .settled resolved) :
    Inv (s.startSettled id r resolved) ∧ Unregisters s e (s.startSettled id r resolved) := by
  have hfollows := Recorder.follows_start (h.sound id r hget) hstart
  have hset : (s.recorders.set id
      { r with start := .done, listened := resolved || r.listened })[id]? = some _ :=
    List.getElem?_set_self (List.getElem?_eq_some_iff.mp hget).1
  have hupdate := h.update hget hfollows fun hnot j hj =>
    h.unfinished id r hget (fun hfinished => hnot ⟨.inl rfl, hfinished.2⟩) j hj
  have hnew : Request.start id ∉ s.answers := by
    intro hmem
    obtain ⟨u, hu, hdone⟩ := h.starts id hmem
    cases hget.symm.trans hu
    cases hstart.symm.trans hdone
  have hanswer := hupdate.answer hnew
    (fun j heq => by
      cases heq
      exact ⟨_, hset, rfl⟩)
    (fun j i heq => by cases heq)
  unfold State.startSettled
  cases resolved with
  | true => exact ⟨hanswer, fun _ _ hj => .inl hj⟩
  | false =>
    have hself : ∀ j, s.registered.get? r.sender = some j → j = id := by
      refine h.unfinished id r hget fun hfinished => ?_
      rcases hfinished.1 with hdone | hdone
      · cases hstart.symm.trans hdone
      · cases hstart.symm.trans hdone
    have hended : r.sessionState ≠ .active := by
      cases h.sound id r hget with
      | starting hstarting => cases hstart.symm.trans hstarting.start
      | running hrunning =>
        rcases hrunning.start with hdone | hdone
        · cases hstart.symm.trans hdone
        · cases hstart.symm.trans hdone
      | ended hended => exact hended.session
    have hunregister := hanswer.unregister hset hended hself
    exact ⟨hunregister, unregisters_removeRecorder rfl hid hself⟩

theorem Inv.stopSettled {id i : ℕ} {r : Recorder}
    {resolved : Bool} (hid : e.recorder = some id) (hget : s.recorders[id]? = some r)
    (hstop : r.stops[i]? = some (.settled resolved)) :
    Inv (s.stopSettled id i r) ∧ Unregisters s e (s.stopSettled id i r) := by
  obtain ⟨hended, hfollows⟩ := Recorder.follows_stop (h.sound id r hget) hstop
  have hset : (s.recorders.set id { r with stops := r.stops.set i .done })[id]? = some _ :=
    List.getElem?_set_self (List.getElem?_eq_some_iff.mp hget).1
  have hnot : ¬r.Finished := fun hfinished => by
    have hdone := hfinished.2 _ (List.mem_of_getElem? hstop)
    cases hdone
  have hself := h.unfinished id r hget hnot
  have hupdate := h.update hget hfollows fun _ => hself
  have hnew : Request.stop id i ∉ s.answers := by
    intro hmem
    obtain ⟨u, hu, hdone⟩ := h.stops id i hmem
    cases hget.symm.trans hu
    cases hstop.symm.trans hdone
  have hanswer := hupdate.answer hnew
    (fun j heq => by cases heq)
    (fun j k heq => by
      cases heq
      exact ⟨_, hset, List.getElem?_set_self (List.getElem?_eq_some_iff.mp hstop).1⟩)
  have hunregister := hanswer.unregister hset hended hself
  exact ⟨hunregister, unregisters_removeRecorder rfl hid hself⟩

theorem Inv.screencast {started : Bool} (hok : Orderly s (.screencast sender started)) :
    Inv (s.screencast sender started) ∧
      Unregisters s (.screencast sender started) (s.screencast sender started) := by
  unfold State.screencast
  cases hget : s.registered.get? sender with
  | some id => exact ⟨h, fun _ _ hj => .inl hj⟩
  | none =>
    refine ⟨h.addRecorder started hget (hok hget), fun k j hj => .inl ?_⟩
    have hne : k ≠ sender := fun heq => by
      rw [heq, hget] at hj
      cases hj
    exact (Dict.get?_set_of_ne _ _ hne).trans hj

theorem Inv.stopScreencast (hok : Orderly s (.stopScreencast sender)) :
    Inv (s.stopScreencast sender) ∧
      Unregisters s (.stopScreencast sender) (s.stopScreencast sender) := by
  unfold State.stopScreencast
  cases hregistered : s.registered.get? sender with
  | none => exact ⟨h, fun _ _ hj => .inl hj⟩
  | some id =>
    refine ⟨?_, fun _ _ hj => .inl hj⟩
    obtain ⟨r, hget, hsender⟩ := h.registered sender id hregistered
    have hstoppable : r.Stoppable := hok id hregistered r hget
    have hmodify : s.recorders.modify id Recorder.stopRecording =
        s.recorders.set id r.stopRecording := by
      rw [List.modify_eq_set_getElem?, hget]
      rfl
    show Inv { s with recorders := s.recorders.modify id Recorder.stopRecording }
    rw [hmodify]
    refine h.update hget (Recorder.follows_stopRecording (h.sound id r hget) hstoppable) ?_
    intro _ j hj
    rw [hsender, hregistered] at hj
    exact (Option.some.inj hj).symm

end

theorem Kept.of_unregisters {s t : State} (hlaw : Law t) (hregistered : Unregisters s e t)
    (hother : ∀ id p message, e ≠ .signal id (.message p message)) : Kept s e t :=
  ⟨hlaw, hregistered, fun id p message _ heq _ _ => absurd heq (hother id p message)⟩

/-- **A step that meets the condition.** -/
theorem Inv.step {s t : State} (h : Inv s) (hok : Orderly s e)
    (hstep : Screencast.step s e = some t) : Kept s e t ∧ Inv t := by
  cases e with
  | screencast sender started =>
    cases hstep
    obtain ⟨hinv, hregistered⟩ := h.screencast hok
    exact ⟨.of_unregisters hinv.law hregistered fun _ _ _ => nofun, hinv⟩
  | stopScreencast sender =>
    cases hstep
    obtain ⟨hinv, hregistered⟩ := h.stopScreencast hok
    exact ⟨.of_unregisters hinv.law hregistered fun _ _ _ => nofun, hinv⟩
  | signal id signal =>
    obtain ⟨r, hget, hreact⟩ := Option.bind_eq_some_iff.mp hstep
    obtain ⟨⟨r', emitted⟩, hon, rfl⟩ := Option.map_eq_some_iff.mp hreact
    have hcurrent : ∀ p message, signal = .message p message → r.Current p message := by
      rintro p message rfl
      exact hok r hget
    have hadvance := Recorder.advance_on (h.sound id r hget) hcurrent hon
    obtain ⟨hinv, hregistered⟩ := h.react (e := .signal id signal) rfl hget hadvance
    refine ⟨⟨hinv.law, hregistered, ?_⟩, hinv⟩
    rintro j p message u heq hu hne
    cases heq
    cases hget.symm.trans hu
    -- the message of another pipeline leaves the recorder as it is
    simp only [Recorder.on, Option.ite_none_right_eq_some, Option.some.injEq] at hon
    rw [Recorder.onBusMessage_of_ne (hcurrent p message rfl) hne] at hon
    cases hon.2
    refine ⟨r, ?_, rfl, rfl⟩
    show (s.recorders.set id r)[id]? = some r
    exact List.getElem?_set_self (List.getElem?_eq_some_iff.mp hget).1
  | startSettled id =>
    obtain ⟨r, hget, hgoes⟩ := Option.bind_eq_some_iff.mp hstep
    cases hstart : r.start with
    | pending => simp [hstart] at hgoes
    | done => simp [hstart] at hgoes
    | settled resolved =>
      simp only [hstart, Option.some.injEq] at hgoes
      obtain ⟨hinv, hregistered⟩ := h.startSettled (e := .startSettled id) rfl hget hstart
      rw [hgoes] at hinv hregistered
      exact ⟨.of_unregisters hinv.law hregistered fun _ _ _ => nofun, hinv⟩
  | stopSettled id i =>
    obtain ⟨r, hget, hgoes⟩ := Option.bind_eq_some_iff.mp hstep
    split at hgoes
    · next resolved hstop =>
      cases hgoes
      obtain ⟨hinv, hregistered⟩ := h.stopSettled (e := .stopSettled id i) rfl hget hstop
      exact ⟨.of_unregisters hinv.law hregistered fun _ _ _ => nofun, hinv⟩
    · cases hgoes

/-! ## Runs -/

/-- **Requests and registrations along a run.** -/
theorem run_recorders {es : List Event} (hok : Runs.Allowed step Orderly .new es) :
    Law .new ∧ Runs.Along step Kept .new es :=
  ⟨inv_new.law, hok.along inv_new fun _ _ _ h hok hstep => h.step hok hstep⟩

def twoSenders : List Event :=
  [.screencast 1 true, .screencast 2 true,
    .signal 0 (.streamAdded [.blocklisted, .starts, .broken, .starts]),
    .signal 0 (.message 0 .error), .signal 1 .senderVanished, .startSettled 1,
    .signal 0 (.message 0 .playing), .signal 0 (.message 1 .playing), .startSettled 0,
    .stopScreencast 1, .signal 0 (.message 1 .eos), .signal 0 (.message 0 .error),
    .stopSettled 0 0, .screencast 1 false, .startSettled 2]

theorem run_recorders_twoSenders :
    (Runs.run step .new twoSenders).isSome ∧ Law .new ∧ Runs.Along step Kept .new twoSenders :=
  ⟨by decide, run_recorders (by decide)⟩

def nextPipeline : List Event :=
  [.screencast 1 true, .signal 0 (.streamAdded [.starts, .starts, .starts]),
    .signal 0 (.message 0 .error)]

def stoppedEarly : List Event := [.screencast 1 true, .stopScreencast 1, .stopSettled 0 0]

def stoppedTwice : List Event :=
  [.screencast 1 true, .signal 0 (.streamAdded [.starts]), .signal 0 (.message 0 .playing),
    .startSettled 0, .stopScreencast 1, .stopScreencast 1, .signal 0 (.message 0 .eos)]

def another : List Event := stoppedEarly ++ [.screencast 1 true, .signal 0 .sessionClosed]

/-- A second error of the first pipeline abandons the next one; an active recorder is not registered;
a stop stays pending; and the other recorder of the sender is unregistered. -/
theorem not_run_recorders : (∃ s t, Runs.run step .new nextPipeline = some s ∧
      step s (.signal 0 (.message 0 .error)) = some t ∧
      ¬Kept s (.signal 0 (.message 0 .error)) t) ∧
    (∃ t, Runs.run step .new stoppedEarly = some t ∧ ¬Law t) ∧
    (∃ t, Runs.run step .new stoppedTwice = some t ∧ ¬Law t) ∧
    ∃ s t, Runs.run step .new another = some s ∧ step s (.startSettled 0) = some t ∧
      ¬Kept s (.startSettled 0) t := by
  refine ⟨?_, ?_, ?_, ?_⟩
  · have hend : ((Runs.run step .new nextPipeline).bind fun s =>
        (step s (.signal 0 (.message 0 .error))).map fun t =>
          (s.recorders.map Recorder.pipeline, t.recorders.map Recorder.pipeline)) =
        some ([some 1], [some 2]) := by decide
    obtain ⟨s, hrun, hstep⟩ := Option.bind_eq_some_iff.mp hend
    obtain ⟨t, hstep, hpipelines⟩ := Option.map_eq_some_iff.mp hstep
    refine ⟨s, t, hrun, hstep, fun hkept => ?_⟩
    obtain ⟨hbefore, hafter⟩ := Prod.mk.inj hpipelines
    obtain ⟨r, hrecorders, hr⟩ := List.map_eq_singleton_iff.mp hbefore
    obtain ⟨u, hrecorders', hu⟩ := List.map_eq_singleton_iff.mp hafter
    obtain ⟨r', hr', heq, -⟩ := hkept.abandoned 0 0 .error r rfl (by rw [hrecorders]; rfl)
      (by rw [hr]; decide)
    rw [hrecorders'] at hr'
    cases hr'
    rw [hr, hu] at heq
    cases heq
  · have hend : (Runs.run step .new stoppedEarly).map (fun t =>
        (t.recorders.map fun r => (r.sender, r.sessionState), t.registered.get? 1)) =
        some ([(1, .active)], none) := by decide
    obtain ⟨t, hrun, hstate⟩ := Option.map_eq_some_iff.mp hend
    refine ⟨t, hrun, fun hlaw => ?_⟩
    obtain ⟨hrecorders, hregistered⟩ := Prod.mk.inj hstate
    obtain ⟨r, hr, hactive⟩ := List.map_eq_singleton_iff.mp hrecorders
    obtain ⟨hsender, hactive⟩ := Prod.mk.inj hactive
    have hself := hlaw.active 0 r (by rw [hr]; rfl) hactive
    rw [hsender, hregistered] at hself
    cases hself
  · have hend : (Runs.run step .new stoppedTwice).map (fun t =>
        t.recorders.map fun r => (r.sessionState, r.stops)) =
        some [(.stopped, [.pending, .settled true])] := by decide
    obtain ⟨t, hrun, hrecorders⟩ := Option.map_eq_some_iff.mp hend
    refine ⟨t, hrun, fun hlaw => ?_⟩
    obtain ⟨r, hr, hstate⟩ := List.map_eq_singleton_iff.mp hrecorders
    obtain ⟨hsession, hstops⟩ := Prod.mk.inj hstate
    have hsettled := (hlaw.settled 0 r (by rw [hr]; rfl) (by rw [hsession]; decide)).2
    rw [hstops] at hsettled
    exact hsettled (by decide)
  · have hend : ((Runs.run step .new another).bind fun s =>
        (step s (.startSettled 0)).map fun t =>
          (s.registered.get? 1, t.registered.get? 1)) = some (some 1, none) := by decide
    obtain ⟨s, hrun, hstep⟩ := Option.bind_eq_some_iff.mp hend
    obtain ⟨t, hstep, hregistered⟩ := Option.map_eq_some_iff.mp hstep
    refine ⟨s, t, hrun, hstep, fun hkept => ?_⟩
    obtain ⟨hbefore, hafter⟩ := Prod.mk.inj hregistered
    rcases hkept.registered 1 1 hbefore with hsame | ⟨-, hrecorder⟩
    · cases hsame.symm.trans hafter
    · exact absurd hrecorder (by decide)

end Screencast
