import GnomeShellMobile.SensorDaemon.Counted

/-!
# SensorDaemon — the claims that have not returned

* `World.calls`: the calls of `claimAmbientLight` or `claimProximity` that are under way, by where
  they are: at an `await` of a promise, or in a microtask.
* `calls_claim`, `calls_told` and the others: a call comes and goes only with its client.
* `Inv.calls_eq_zero`: when nothing is in flight, no call is under way.
-/

namespace SensorDaemon

open World

variable {w w' : World} {s t : SensorType}
variable {rest : List Job} {job : Job}

def Job.answers : Job → Option SensorType
  | .claimSettled sensor _ _ => some sensor
  | .claimReturned sensor _ => some sensor
  | .told sensor _ => some sensor
  | .client => none

def Sensor.awaiting (c : Sensor) : ℕ :=
  match c.claiming.map c.promise with
  | some (.pending joined) => joined + 1
  | _ => 0

def World.calls (w : World) (s : SensorType) : ℕ :=
  (w.sensors s).awaiting + w.queue.countP (·.answers = some s)

theorem calls_enqueue (jobs : List Job) :
    (w.enqueue jobs).calls t = w.calls t + jobs.countP (·.answers = some t) := by
  rw [calls, calls, World.enqueue, List.countP_append, Nat.add_assoc]

theorem calls_enqueue_self (h : job.answers = some s) :
    (w.enqueue [job]).calls s = w.calls s + 1 := by
  simp [calls_enqueue, h]

theorem calls_enqueue_of_ne (h : job.answers ≠ some t) : (w.enqueue [job]).calls t = w.calls t := by
  simp [calls_enqueue, h]

@[simp] theorem calls_enqueue_client : (w.enqueue [.client]).calls t = w.calls t :=
  calls_enqueue_of_ne (by simp [Job.answers])

theorem calls_setSensor_of_ne (c : Sensor) (h : t ≠ s) : (w.setSensor s c).calls t = w.calls t := by
  simp [calls, setSensor, h]

theorem calls_setSensor {c : Sensor} (n : ℕ) (h : c.awaiting = (w.sensors s).awaiting + n) :
    (w.setSensor s c).calls s = w.calls s + n := by
  simp only [calls, setSensor, Function.update_self, h]
  omega

@[simp] theorem calls_addClaimed (d : ℤ) : (w.addClaimed s d).calls t = w.calls t := by
  by_cases h : t = s
  · rw [h]
    exact calls_setSensor 0 rfl
  · exact calls_setSensor_of_ne _ h

@[simp] theorem calls_succeed : (w.succeed s).calls t = w.calls t := calls_addClaimed 1

@[simp] theorem calls_countReleased : (w.countReleased s).calls t = w.calls t := rfl

theorem calls_release : (w.release s).calls t = w.calls t := by
  rw [World.release]
  split
  · rw [releaseSensor]
    split
    · exact calls_enqueue_client
    · exact calls_addClaimed _
  · split
    · rw [calls_enqueue_client, calls_addClaimed, calls_countReleased]
    · rw [calls_enqueue_client, calls_countReleased]

theorem calls_claimSensor : (w.claimSensor s).calls s = w.calls s + 1 := by
  rw [claimSensor]
  split
  · split
    next p hclaiming =>
      rw [join]
      split
      next joined hjoined =>
        refine calls_setSensor 1 ?_
        simp [Sensor.join, Sensor.awaiting, hclaiming, hjoined]
      next ok _ => exact calls_enqueue_self rfl
    next hclaiming =>
      refine calls_setSensor 1 ?_
      simp [Sensor.newPromise, Sensor.awaiting, hclaiming]
  · exact calls_enqueue_self rfl

theorem calls_claim : (w.claim s).calls s = w.calls s + 1 := by
  rw [claim]
  split
  · exact calls_claimSensor
  · rw [calls_enqueue_self rfl, calls_succeed]

theorem calls_claim_of_ne (h : t ≠ s) : (w.claim s).calls t = w.calls t := by
  have hanswers {job : Job} (hjob : job.answers = some s) : job.answers ≠ some t := fun hst =>
    h (Option.some.inj (hst.symm.trans hjob))
  rw [claim]
  split
  · rw [claimSensor]
    split
    · split
      · rw [join]
        split
        · exact calls_setSensor_of_ne _ h
        · exact calls_enqueue_of_ne (hanswers rfl)
      · exact calls_setSensor_of_ne _ h
    · exact calls_enqueue_of_ne (hanswers rfl)
  · rw [calls_enqueue_of_ne (hanswers rfl), calls_succeed]

/-! ## Microtasks and replies -/

theorem calls_dropJob (h : w.queue = job :: rest) :
    w.calls t = w.dropJob.calls t + if job.answers = some t then 1 else 0 := by
  simp only [calls, dropJob, h, List.tail_cons, List.countP_cons, decide_eq_true_eq]
  omega

theorem Phase.awaiting {c : Sensor} {first ok : Bool} {requests : List Request}
    {replies : List Reply} {remote : Bool} {d : ℕ}
    (h : Phase s c (.claimSettled s first ok :: rest) requests replies remote d) :
    c.awaiting = 0 := by
  generalize hsettling : Job.claimSettled s first ok :: rest = settling at h
  cases h with
  | passing _ n hclaiming => simp [Sensor.awaiting, hclaiming]
  | waiting => cases hsettling
  | settling _ n _ hclaiming =>
    obtain ⟨p, hp, hsettled⟩ := hclaiming
    simp [Sensor.awaiting, hp, hsettled]

theorem Inv.awaiting {first ok : Bool} (h : Inv w)
    (hqueue : w.queue = .claimSettled s first ok :: rest) : (w.sensors s).awaiting = 0 := by
  obtain ⟨d, hphase, -⟩ := (h.ok s).phase
  have hsettling : (w.view s).settling = .claimSettled s first ok :: (w.dropJob.view s).settling := by
    rw [view_dropJob hqueue s]
    simp [View.push, Job.settles]
  rw [hsettling] at hphase
  exact hphase.awaiting

theorem calls_deleteClaiming (h : (w.sensors s).awaiting = 0) :
    (w.deleteClaiming s).calls t = w.calls t := by
  by_cases ht : t = s
  · rw [ht]
    refine calls_setSensor 0 ?_
    rw [h]
    rfl
  · exact calls_setSensor_of_ne _ ht

theorem Inv.calls_claimSettled {first ok : Bool} (h : Inv w)
    (hqueue : w.queue = .claimSettled s first ok :: rest) :
    (w.dropJob.claimSettled s first ok).calls t = w.calls t := by
  have hawaiting : (w.dropJob.sensors s).awaiting = 0 := h.awaiting hqueue
  have hdrop : w.calls t = (w.dropJob.enqueue [.claimReturned s ok]).calls t := by
    rw [calls_dropJob hqueue, calls_enqueue]
    simp [Job.answers]
  rw [hdrop, calls_enqueue]
  cases ok with
  | false =>
    change ((w.dropJob.deleteClaiming s).enqueue _).calls t = _
    rw [calls_enqueue, calls_deleteClaiming hawaiting]
  | true =>
    cases first with
    | false =>
      change ((w.dropJob.succeed s).enqueue _).calls t = _
      rw [calls_enqueue, calls_succeed]
    | true =>
      change (((w.dropJob.deleteClaiming s).succeed s).enqueue _).calls t = _
      rw [calls_enqueue, calls_succeed, calls_deleteClaiming hawaiting]

theorem Inv.calls_runJob (h : Inv w) (hqueue : w.queue = job :: rest)
    (htold : ∀ ok, job ≠ .told t ok) : (w.dropJob.runJob job).calls t = w.calls t := by
  cases job with
  | claimSettled s first ok => exact h.calls_claimSettled hqueue
  | claimReturned s ok =>
    change (w.dropJob.enqueue [.told s ok]).calls t = w.calls t
    rw [calls_dropJob hqueue, calls_enqueue]
    simp [Job.answers]
  | told s ok =>
    have hne : s ≠ t := fun hst => htold ok (by rw [hst])
    rw [calls_dropJob hqueue, if_neg (by simpa [Job.answers] using hne), Nat.add_zero]
    cases ok <;> rfl
  | client =>
    rw [calls_dropJob hqueue, if_neg (by simp [Job.answers]), Nat.add_zero]
    rfl

theorem calls_told {ok : Bool} (hqueue : w.queue = .told s ok :: rest) :
    w.calls s = (w.dropJob.runJob (.told s ok)).calls s + 1 := by
  rw [calls_dropJob hqueue, if_pos (show (Job.told s ok).answers = some s from rfl)]
  cases ok <;> rfl

theorem Inv.calls_deliver {reply : Reply} {rest : List Reply} (h : Inv w)
    (hreplies : w.replies = reply :: rest) : (w.dropReply.deliver reply).calls t = w.calls t := by
  cases reply with
  | released s => exact calls_enqueue_client
  | claimed s p ok =>
    have hhead : (w.view s).replies = .claimed s p ok :: rest.filter (·.sensor = s) := by
      simp [view, hreplies, Reply.sensor]
    obtain ⟨-, hclaiming, joined, hjoined, -⟩ := (h.ok s).deliverClaimed hhead
    have hpending : (w.sensors s).promise p = .pending joined := hjoined
    have hawaited : (w.sensors s).claiming = some p := hclaiming
    by_cases ht : t = s
    · rw [ht]
      cases ok <;> simp [World.deliver, World.enqueue, setSensor, countAck, setCounts, dropReply, calls,
        Sensor.awaiting, hpending, hawaited, Job.answers, List.countP_replicate, Nat.add_comm]
    · cases ok <;> simp [World.deliver, World.enqueue, setSensor, countAck, setCounts, dropReply, calls,
        Job.answers, List.countP_replicate, ht, Ne.symm ht]

theorem calls_serve (ok : Bool) (request : Request) :
    (w.dropRequest.serve ok request).calls t = w.calls t := by
  cases request <;> rfl

/-! ## Nothing in flight -/

def World.Rests (w : World) (s : SensorType) : Prop :=
  (∀ request ∈ w.requests, request.sensor ≠ s) ∧ (∀ reply ∈ w.replies, reply.sensor ≠ s) ∧
    ∀ job ∈ w.queue, job.answers ≠ some s
deriving Decidable

theorem Job.answers_of_settles (h : job.settles = some s) : job.answers = some s := by
  cases job <;> first | exact h | cases h

namespace Inv

theorem calls_eq_zero (h : Inv w) (hrests : w.Rests s) : w.calls s = 0 := by
  obtain ⟨hrequests, hreplies, hqueue⟩ := hrests
  obtain ⟨d, hphase, -⟩ := (h.ok s).phase
  have hclaiming : (w.view s).sensor.claiming = none := by
    refine (hphase.rest ?_ ?_ ?_).1
    · exact List.filter_eq_nil_iff.mpr fun job hjob => by
        simpa using fun hsettles => hqueue job hjob (Job.answers_of_settles hsettles)
    · exact List.filter_eq_nil_iff.mpr fun request hrequest => by simpa using hrequests request hrequest
    · exact List.filter_eq_nil_iff.mpr fun reply hreply => by simpa using hreplies reply hreply
  have hnone : (w.sensors s).claiming = none := hclaiming
  have hcount : w.queue.countP (·.answers = some s) = 0 :=
    List.countP_eq_zero.mpr fun job hjob => by simpa using hqueue job hjob
  rw [calls, hcount, Sensor.awaiting, hnone]
  rfl

theorem claimed_eq (h : Inv w) (hrests : w.Rests s) :
    (w.sensors s).claimed + (w.counts s).released = (w.counts s).told := by
  have hadds := (h.ok s).adds
  have hcount : (w.sensors s).claimed + (w.counts s).released = (w.counts s).succeeded := hadds.claimed
  have htold : (w.counts s).told + (w.view s).owed = (w.counts s).succeeded := hadds.told
  have howed : (w.view s).owed = 0 := by
    refine List.countP_eq_zero.mpr fun job hjob howes => ?_
    obtain rfl | rfl : Job.Owes s job := of_decide_eq_true howes
    · exact hrests.2.2 _ hjob rfl
    · exact hrests.2.2 _ hjob rfl
  omega

end Inv

end SensorDaemon
