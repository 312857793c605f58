import GnomeShellMobile.SensorDaemon.Claims

/-!
# SensorDaemon — the use counts are right

* `Inv.claim`, `Inv.release`, `Inv.runJob`, `Inv.deliver`, `Inv.serve`: each keeps the invariant.
* `Inv.step` and `claims_counted`: so it holds in every run, and with it the counts.
-/

namespace SensorDaemon

open World

variable {w w' : World} {s t : SensorType}

namespace Inv

variable {rest : List Job}

section

variable (h : Inv w)
include h

theorem claimSensor (hactive : w.active) (hclaimed : (w.sensors s).claimed = 0) :
    Inv (w.claimSensor s) := by
  have hsettling := h.settling hactive s
  have hquiet := h.quiet hactive
  rw [World.claimSensor]
  split
  · cases hclaiming : (w.sensors s).claiming with
    | none =>
      dsimp only
      refine h.of_same (s := s) rfl (fun _ => hquiet) ?_ ?_
      · intro t ht
        rw [view_send_of_ne (r := .claim s (w.sensors s).promises) ht.symm, view_setSensor_of_ne _ ht]
      · rw [view_send_self (s := s) (r := .claim s (w.sensors s).promises) rfl, view_setSensor_self]
        exact (h.ok s).first hsettling hclaimed hclaiming
    | some p =>
      obtain ⟨joined, hjoined, hok⟩ := (h.ok s).join hsettling hclaimed hclaiming
      have hpending : (w.sensors s).promise p = .pending joined := hjoined
      simp only [World.join, hpending]
      refine h.of_same (s := s) rfl (fun _ => hquiet) ?_ ?_
      · intro t ht
        exact view_setSensor_of_ne _ ht
      · rw [view_setSensor_self]
        exact hok
  · refine h.of_view (s := s) (.refl _) rfl (by simp [Job.settles]) (fun _ => hquiet) ?_ ?_
    · intro t _
      rw [view_enqueue, View.enqueue_claimReturned_false]
    · rw [view_enqueue, View.enqueue_claimReturned_false]
      exact h.ok s

theorem claim (hactive : w.active) (s : SensorType) : Inv (w.claim s) := by
  rw [World.claim]
  split
  next hclaimed => exact h.claimSensor hactive hclaimed
  next hclaimed =>
    refine h.of_view (s := s) (.refl _) rfl (by simp [Job.settles]) (fun _ => h.quiet hactive) ?_ ?_
    · intro t ht
      rw [view_enqueue, View.enqueue_told_of_ne _ _ ht, view_succeed_of_ne ht]
    · rw [view_enqueue, View.enqueue_told, view_succeed_self]
      exact (h.ok s).more (h.settling hactive s) hclaimed

theorem release (hrelease : w.CanRelease s) : Inv (w.release s) := by
  obtain ⟨hactive, hreleased⟩ := hrelease
  have hquiet := h.quiet hactive
  have hsettling := h.settling hactive s
  have hpos : 0 < (w.sensors s).claimed := by
    have hcount : (w.sensors s).claimed + (w.counts s).released = (w.counts s).succeeded :=
      (h.ok s).adds.claimed
    have htold : (w.counts s).told + (w.view s).owed = (w.counts s).succeeded := (h.ok s).adds.told
    omega
  rw [World.release]
  split
  next hone =>
    obtain ⟨hclaiming, hok⟩ := (h.ok s).last hsettling hone hreleased
    have hnone : ¬ ((w.countReleased s).sensors s).claiming.isSome := by
      rw [show ((w.countReleased s).sensors s).claiming = none from hclaiming]
      exact Bool.noConfusion
    rw [releaseSensor, if_neg hnone]
    refine h.of_same (s := s) rfl (fun _ => hquiet) ?_ ?_
    · intro t ht
      rw [countRelease, view_setCounts_of_ne _ ht, view_send_of_ne (r := .release s) ht.symm,
        addClaimed, view_setSensor_of_ne _ ht, countReleased, view_setCounts_of_ne _ ht]
    · rw [countRelease, view_setCounts_self, view_send_self (s := s) (r := .release s) rfl,
        addClaimed, view_setSensor_self, countReleased, view_setCounts_self]
      have hcounts : (w.setCounts s { w.counts s with released := (w.counts s).released + 1 }).counts s
          = { w.counts s with released := (w.counts s).released + 1 } := Function.update_self _ _ _
      simp only [World.send, setSensor, hcounts]
      exact hok
  next hone =>
    have hmany : 1 < (w.sensors s).claimed := by omega
    rw [if_pos hmany]
    refine h.of_view (s := s) (.refl _) rfl (by simp [Job.settles]) (fun _ => h.quiet hactive) ?_ ?_
    · intro t ht
      rw [view_enqueue, View.enqueue_client, addClaimed, view_setSensor_of_ne _ ht, countReleased,
        view_setCounts_of_ne _ ht]
    · rw [view_enqueue, View.enqueue_client, addClaimed, view_setSensor_self, countReleased,
        view_setCounts_self]
      exact (h.ok s).less hsettling hmany hreleased

theorem claimSettled {first ok : Bool}
    (hqueue : w.queue = .claimSettled s first ok :: rest) (hactive : w.active = false) :
    Inv (w.dropJob.claimSettled s first ok) := by
  have hother : ∀ t, t ≠ s → w.dropJob.view t = w.view t := fun t ht => by
    rw [view_dropJob hqueue t, View.push_eq (by simp [Job.settles, Job.Owes, ht.symm])]
  have hok := h.ok s
  rw [view_dropJob hqueue s] at hok
  have hsettling : ((w.dropJob.view s).push s (.claimSettled s first ok)).settling =
      .claimSettled s first ok :: (w.dropJob.view s).settling := by
    simp [View.push, Job.settles]
  have howed : ((w.dropJob.view s).push s (.claimSettled s first ok)).owed =
      (w.dropJob.view s).owed := by
    simp [View.push, Job.Owes]
  have hrun : w.dropJob.active → ∀ job ∈ w.dropJob.queue, job.settles = none := by
    simp [dropJob, hactive]
  cases ok with
  | false =>
    change Inv ((w.dropJob.deleteClaiming s).enqueue [.claimReturned s false])
    refine h.of_view (s := s) (List.tail_sublist _) rfl (by simp [Job.settles]) hrun ?_ ?_
    · intro t ht
      rw [view_enqueue, View.enqueue_claimReturned_false, view_deleteClaiming_of_ne ht, hother t ht]
    · rw [view_enqueue, View.enqueue_claimReturned_false, view_deleteClaiming_self]
      have hrefused := hok.refused hsettling
      exact hrefused
  | true =>
    have hgranted := hok.granted hsettling
    cases first with
    | false =>
      change Inv ((w.dropJob.succeed s).enqueue [.claimReturned s true])
      refine h.of_view (s := s) (List.tail_sublist _) rfl (by simp [Job.settles]) hrun ?_ ?_
      · intro t ht
        rw [view_enqueue, View.enqueue_claimReturned_of_ne _ _ ht, view_succeed_of_ne ht, hother t ht]
      · rw [view_enqueue, View.enqueue_claimReturned, view_succeed_self]
        exact hgranted
    | true =>
      change Inv (((w.dropJob.deleteClaiming s).succeed s).enqueue [.claimReturned s true])
      refine h.of_view (s := s) (List.tail_sublist _) rfl (by simp [Job.settles]) hrun ?_ ?_
      · intro t ht
        rw [view_enqueue, View.enqueue_claimReturned_of_ne _ _ ht, view_succeed_of_ne ht,
          view_deleteClaiming_of_ne ht, hother t ht]
      · rw [view_enqueue, View.enqueue_claimReturned, view_succeed_self, view_deleteClaiming_self]
        exact hgranted

theorem quiet_dropJob {job : Job} (hqueue : w.queue = job :: rest)
    (hjob : job.settles = none) : ∀ later ∈ w.dropJob.queue, later.settles = none := by
  intro later hlater
  have hfront := h.front
  rw [hqueue] at hfront
  rw [dropJob, hqueue] at hlater
  by_contra hsome
  have := List.rel_of_pairwise_cons hfront hlater (Option.isSome_iff_ne_none.mpr hsome)
  rw [hjob] at this
  cases this

theorem claimReturned {ok : Bool}
    (hqueue : w.queue = .claimReturned s ok :: rest) : Inv (w.dropJob.enqueue [.told s ok]) := by
  have hquiet := h.quiet_dropJob hqueue rfl
  refine h.of_view (s := s) (List.tail_sublist _) rfl (by simp [Job.settles]) (fun _ => hquiet) ?_ ?_
  · intro t ht
    rw [view_enqueue, View.enqueue_told_of_ne _ _ ht, view_dropJob hqueue t,
      View.push_eq (by simp [Job.settles, Job.Owes, ht.symm])]
  · have hok := h.ok s
    rw [view_dropJob hqueue s] at hok
    have hpush : (w.dropJob.view s).enqueue s [.told s ok] =
        (w.dropJob.view s).push s (.claimReturned s ok) := by
      simp [View.enqueue, View.push, Job.settles, Job.Owes]
    rw [view_enqueue, hpush]
    exact hok

theorem told {ok : Bool} (hqueue : w.queue = .told s ok :: rest) :
    Inv (w.dropJob.runJob (.told s ok)) := by
  have hquiet := h.quiet_dropJob hqueue rfl
  have hok := h.ok s
  rw [view_dropJob hqueue s] at hok
  cases ok with
  | false =>
    refine h.of_view (s := s) (List.tail_sublist _) (List.append_nil _).symm (by simp) (fun _ => hquiet)
      ?_ ?_
    · intro t _
      change w.dropJob.view t = w.view t
      rw [view_dropJob hqueue t, View.push_eq (by simp [Job.settles, Job.Owes])]
    · rw [View.push_eq (by simp [Job.settles, Job.Owes])] at hok
      exact hok
  | true =>
    refine h.of_view (s := s) (List.tail_sublist _) (List.append_nil _).symm (by simp) (fun _ => hquiet)
      ?_ ?_
    · intro t ht
      change (w.dropJob.countTold s).view t = w.view t
      rw [countTold, view_setCounts_of_ne _ ht, view_dropJob hqueue t,
        View.push_eq (by simp [Job.settles, Job.Owes, ht.symm])]
    · change View.Ok s ((w.dropJob.countTold s).view s)
      have hpush : (w.dropJob.view s).push s (.told s true) =
          { w.dropJob.view s with owed := (w.dropJob.view s).owed + 1 } := by
        simp [View.push, Job.settles, Job.Owes]
      rw [hpush] at hok
      have htell := hok.tell rfl
      rw [countTold, view_setCounts_self]
      exact htell

theorem client (hqueue : w.queue = .client :: rest) :
    Inv (w.dropJob.runJob .client) := by
  have hview : ∀ t, w.dropJob.view t = w.view t := fun t => by
    rw [view_dropJob hqueue t, View.push_eq (by simp [Job.settles, Job.Owes])]
  refine h.of_view (s := .compass) (List.tail_sublist _) (List.append_nil _).symm (by simp)
    (fun _ => h.quiet_dropJob hqueue rfl) (fun t _ => hview t) ?_
  exact (hview _).symm ▸ h.ok _

theorem runJob {job : Job} (hqueue : w.queue = job :: rest)
    (hactive : w.active = false) : Inv (w.dropJob.runJob job) := by
  cases job with
  | claimSettled s first ok => exact h.claimSettled hqueue hactive
  | claimReturned s ok => exact h.claimReturned hqueue
  | told s ok => exact h.told hqueue
  | client => exact h.client hqueue

end

/-! The service and its replies. -/

section

variable (h : Inv w)
include h

theorem serveRelease {rest : List Request} (hrequests : w.requests = .release s :: rest)
    (ok : Bool) : Inv (w.dropRequest.serve ok (.release s)) := by
  refine h.of_view (s := s) (.refl _) (List.append_nil _).symm (by simp) h.quiet ?_ ?_
  · intro t ht
    simp [view, dropRequest, serve, hrequests, Request.sensor, Reply.sensor, ht, ht.symm]
  · have hhead : (w.view s).requests = .release s :: rest.filter (·.sensor = s) := by
      simp [view, hrequests, Request.sensor]
    have hserve := (h.ok s).serveRelease hhead
    convert hserve using 1
    simp [view, dropRequest, serve, hrequests, Reply.sensor]

theorem serveClaim {p : ℕ} {rest : List Request}
    (hrequests : w.requests = .claim s p :: rest) (ok : Bool) :
    Inv (w.dropRequest.serve ok (.claim s p)) := by
  refine h.of_view (s := s) (.refl _) (List.append_nil _).symm (by simp) h.quiet ?_ ?_
  · intro t ht
    cases ok <;> simp [view, dropRequest, serve, hrequests, Request.sensor, Reply.sensor, ht, ht.symm]
  · have hhead : (w.view s).requests = .claim s p :: rest.filter (·.sensor = s) := by
      simp [view, hrequests, Request.sensor]
    obtain ⟨hremote, hserve⟩ := (h.ok s).serveClaim hhead ok
    have hfree : w.remote s = false := hremote
    convert hserve using 1
    cases ok <;> simp [view, dropRequest, serve, hrequests, Reply.sensor, hfree]

theorem serve {request : Request} {rest : List Request}
    (hrequests : w.requests = request :: rest) (ok : Bool) :
    Inv (w.dropRequest.serve ok request) := by
  cases request with
  | claim s p => exact h.serveClaim hrequests ok
  | release s => exact h.serveRelease hrequests ok

theorem deliverReleased {rest : List Reply} (hreplies : w.replies = .released s :: rest)
    (hloops : w.Loops) : Inv (w.dropReply.deliver (.released s)) := by
  have hview : ∀ t, (w.dropReply.deliver (.released s)).view t = w.dropReply.view t := fun t => by
    change (w.dropReply.enqueue [.client]).view t = _
    rw [view_enqueue, View.enqueue_client]
  refine h.of_view (s := s) (.refl _) rfl (by simp [Job.settles]) (by simp [hloops.2]) ?_ ?_
  · intro t ht
    rw [hview]
    simp [view, dropReply, hreplies, Reply.sensor, ht.symm]
  · have hhead : (w.view s).replies = .released s :: rest.filter (·.sensor = s) := by
      simp [view, hreplies, Reply.sensor]
    have hok := (h.ok s).deliverReleased hhead
    rw [hview]
    convert hok using 1
    simp [view, dropReply, hreplies]

theorem deliverClaimed {p : ℕ} {ok : Bool} {rest : List Reply}
    (hreplies : w.replies = .claimed s p ok :: rest) (hloops : w.Loops) :
    Inv (w.dropReply.deliver (.claimed s p ok)) := by
  have hhead : (w.view s).replies = .claimed s p ok :: rest.filter (·.sensor = s) := by
    simp [view, hreplies, Reply.sensor]
  obtain ⟨hsettling, -, joined, hjoined, hok⟩ := (h.ok s).deliverClaimed hhead
  have hpending : (w.sensors s).promise p = .pending joined := hjoined
  have hqueue : (w.dropReply.deliver (.claimed s p ok)).queue =
      .claimSettled s true ok :: List.replicate joined (.claimSettled s false ok) := by
    cases ok <;> simp [World.deliver, World.enqueue, setSensor, countAck, setCounts, dropReply, hpending,
      hloops.2]
  have hsettles : ∀ job ∈ (w.dropReply.deliver (.claimed s p ok)).queue,
      job.settles = some s ∧ ∀ t, ¬ job.Owes t := by
    rw [hqueue]
    intro job hjob
    obtain rfl | hjob := List.mem_cons.mp hjob
    · exact ⟨rfl, fun t => by simp [Job.Owes]⟩
    · rw [List.eq_of_mem_replicate hjob]
      exact ⟨rfl, fun t => by simp [Job.Owes]⟩
  refine ⟨?_, ?_, ?_⟩
  · refine List.pairwise_of_forall_mem_list fun job hjob _ _ _ => ?_
    rw [(hsettles job hjob).1, Option.isSome_some]
  · have hactive : (w.dropReply.deliver (.claimed s p ok)).active = false := by
      cases ok <;> exact hloops.1
    simp [hactive]
  · intro t
    by_cases ht : t = s
    · subst ht
      convert hok using 1
      simp only [view, hqueue]
      cases ok <;> simp [World.deliver, World.enqueue, setSensor, countAck, setCounts, dropReply, hpending,
        hreplies, hloops.2, Job.settles, Job.Owes]
    · have hother : (w.dropReply.deliver (.claimed s p ok)).view t = w.view t := by
        simp only [view, hqueue]
        cases ok <;> simp [World.deliver, World.enqueue, setSensor, countAck, setCounts, dropReply,
          hreplies, hloops.2, Job.settles, Job.Owes, Reply.sensor, ht, Ne.symm ht]
      rw [hother]
      exact h.ok t

theorem deliver {reply : Reply} {rest : List Reply} (hreplies : w.replies = reply :: rest)
    (hloops : w.Loops) : Inv (w.dropReply.deliver reply) := by
  cases reply with
  | claimed s p ok => exact h.deliverClaimed hreplies hloops
  | released s => exact h.deliverReleased hreplies hloops

theorem loop (hqueue : w'.queue = w.queue) (hview : ∀ t, w'.view t = w.view t)
    (hactive : w'.active → ∀ job ∈ w.queue, job.settles = none) : Inv w' :=
  h.of_same (s := .compass) hqueue hactive (fun t _ => hview t) ((hview _).symm ▸ h.ok _)

theorem step {e : Event} (hstep : step w e = some w') : Inv w' := by
  cases e with
  | start =>
    obtain ⟨hloops, rfl⟩ : w.Loops ∧ { w with active := true } = w' := by
      simpa [SensorDaemon.step] using hstep
    exact h.loop rfl (fun _ => rfl) (fun _ => by simp [hloops.2])
  | finish =>
    obtain ⟨-, rfl⟩ : w.active = true ∧ { w with active := false } = w' := by
      simpa [SensorDaemon.step] using hstep
    exact h.loop rfl (fun _ => rfl) Bool.noConfusion
  | defer =>
    obtain ⟨hactive, rfl⟩ : w.active = true ∧ w.enqueue [.client] = w' := by
      simpa [SensorDaemon.step] using hstep
    have hview : ∀ t, (w.enqueue [.client]).view t = w.view t := fun t => by
      rw [view_enqueue, View.enqueue_client]
    exact h.of_view (s := .compass) (.refl _) rfl (by simp [Job.settles]) (fun _ => h.quiet hactive)
      (fun t _ => hview t) ((hview _).symm ▸ h.ok _)
  | claimProximity =>
    obtain ⟨hactive, rfl⟩ : w.active = true ∧ w.claimProximity = w' := by
      simpa [SensorDaemon.step] using hstep
    exact h.claim hactive .proximity
  | releaseProximity =>
    obtain ⟨hrelease, rfl⟩ : w.CanRelease .proximity ∧ w.releaseProximity = w' := by
      simpa [SensorDaemon.step] using hstep
    exact h.release hrelease
  | claimAmbientLight =>
    obtain ⟨hactive, rfl⟩ : w.active = true ∧ w.claimAmbientLight = w' := by
      simpa [SensorDaemon.step] using hstep
    exact h.claim hactive .ambientLight
  | releaseAmbientLight =>
    obtain ⟨hrelease, rfl⟩ : w.CanRelease .ambientLight ∧ w.releaseAmbientLight = w' := by
      simpa [SensorDaemon.step] using hstep
    exact h.release hrelease
  | job =>
    simp only [SensorDaemon.step] at hstep
    split at hstep
    next job rest hactive hqueue =>
      cases hstep
      exact h.runJob hqueue hactive
    next => cases hstep
  | deliver =>
    simp only [SensorDaemon.step] at hstep
    split at hstep
    next => cases hstep
    next reply rest hreplies =>
      obtain ⟨hloops, rfl⟩ : w.Loops ∧ w.dropReply.deliver reply = w' := by simpa using hstep
      exact h.deliver hreplies hloops
  | serve ok =>
    simp only [SensorDaemon.step] at hstep
    split at hstep
    next => cases hstep
    next request rest hrequests =>
      cases hstep
      exact h.serve hrequests ok
  | hasAmbientLight value =>
    cases hstep
    exact h.loop rfl (fun _ => rfl) h.quiet
  | hasProximity value =>
    cases hstep
    exact h.loop rfl (fun _ => rfl) h.quiet

end

end Inv

/-! ## The counts -/

/-- No call about the sensor is in flight, and no `_claimSensor` is still to learn of a reply. -/
def World.Settled (w : World) (s : SensorType) : Prop :=
  (∀ request ∈ w.requests, request.sensor ≠ s) ∧ (∀ reply ∈ w.replies, reply.sensor ≠ s) ∧
    ∀ job ∈ w.queue, job.settles ≠ some s

/-- In every run the use count is the number of claims that succeeded and are not yet released, the
service has acknowledged as many claims as it was asked to release or one more, and when no call is
pending it has the sensor claimed if and only if there are clients. -/
theorem claims_counted (hasAmbientLight hasProximity : Bool) (s : SensorType)
    (h : Runs.Reachable step (World.new hasAmbientLight hasProximity) w) :
    0 ≤ (w.sensors s).claimed ∧
      (w.sensors s).claimed = (w.counts s).succeeded - (w.counts s).released ∧
      (w.counts s).released ≤ (w.counts s).succeeded ∧
      ((w.counts s).acks = (w.counts s).releases ∨ (w.counts s).acks = (w.counts s).releases + 1) ∧
      (w.Settled s → (w.remote s = true ↔ 0 < (w.sensors s).claimed)) := by
  have hinv : Inv w := h.invariant (Inv.new _ _) fun _ _ _ hinv _ hstep => hinv.step hstep
  obtain ⟨d, hphase, hacks⟩ := (hinv.ok s).phase
  have hadds := (hinv.ok s).adds
  have hcount : (w.sensors s).claimed + (w.counts s).released = (w.counts s).succeeded := hadds.claimed
  have htold : (w.counts s).told + (w.view s).owed = (w.counts s).succeeded := hadds.told
  have hreleased : (w.counts s).released ≤ (w.counts s).told := hadds.released
  have hgiven : (w.counts s).acks = (w.counts s).releases + d := hacks
  obtain ⟨hpos, hd⟩ := hphase.bounds
  have hnonneg : 0 ≤ (w.sensors s).claimed := hpos
  refine ⟨hnonneg, by omega, by omega, by omega, ?_⟩
  rintro ⟨hrequests, hreplies, hqueue⟩
  refine (hphase.rest ?_ ?_ ?_).2
  · exact List.filter_eq_nil_iff.mpr fun job hjob => by simpa using hqueue job hjob
  · exact List.filter_eq_nil_iff.mpr fun request hrequest => by simpa using hrequests request hrequest
  · exact List.filter_eq_nil_iff.mpr fun reply hreply => by simpa using hreplies reply hreply

theorem claims_counted_twoClients :
    let es : List Event := [.hasProximity true, .start, .claimProximity, .claimProximity, .finish,
      .serve true, .deliver, .job, .job, .job, .job, .job, .finish, .job, .releaseProximity, .finish]
    ∃ w, Runs.run step (World.new false false) es = some w ∧ (w.sensors .proximity).claimed = 1 ∧
      0 ≤ (w.sensors .proximity).claimed ∧
      (w.sensors .proximity).claimed =
        (w.counts .proximity).succeeded - (w.counts .proximity).released ∧
      (w.counts .proximity).released ≤ (w.counts .proximity).succeeded ∧
      ((w.counts .proximity).acks = (w.counts .proximity).releases ∨
        (w.counts .proximity).acks = (w.counts .proximity).releases + 1) ∧
      (w.Settled .proximity → (w.remote .proximity = true ↔ 0 < (w.sensors .proximity).claimed)) := by
  intro es
  have hclaimed : (Runs.run step (World.new false false) es).map
      (fun w => (w.sensors .proximity).claimed) = some 1 := by decide
  obtain ⟨w, hrun, hone⟩ := Option.map_eq_some_iff.mp hclaimed
  exact ⟨w, hrun, hone, claims_counted false false .proximity (Runs.Reachable.of_run es hrun)⟩

end SensorDaemon
