import GnomeShellMobile.SensorDaemon.Daemon

/-!
# SensorDaemon — one sensor across all pending calls

* `View`: what concerns one sensor, with the microtasks and calls in flight that are about it.
* `Phase`: how these go together: where the `Claim` or `Release` in flight is, what the service
  holds meanwhile, and which calls are still to learn of a reply.
* `Inv`: every sensor is in a phase and its history adds up. `Inv.step` keeps it.
-/

namespace SensorDaemon

open World

variable {w : World} {s t : SensorType}

/-! ## What concerns one sensor -/

def Job.settles : Job → Option SensorType
  | .claimSettled sensor _ _ => some sensor
  | _ => none

def Job.Owes (s : SensorType) (job : Job) : Prop :=
  job = .claimReturned s true ∨ job = .told s true

instance (s : SensorType) : DecidablePred (Job.Owes s) := fun _ => inferInstanceAs (Decidable (_ ∨ _))

structure View where
  sensor : Sensor
  settling : List Job
  owed : ℕ
  requests : List Request
  replies : List Reply
  remote : Bool
  counts : Counts

def World.view (w : World) (s : SensorType) : View :=
  { sensor := w.sensors s
    settling := w.queue.filter (·.settles = some s)
    owed := w.queue.countP (Job.Owes s)
    requests := w.requests.filter (·.sensor = s)
    replies := w.replies.filter (·.sensor = s)
    remote := w.remote s
    counts := w.counts s }

variable (v : View)

def View.enqueue (s : SensorType) (jobs : List Job) : View :=
  { v with
    settling := v.settling ++ jobs.filter (·.settles = some s)
    owed := v.owed + jobs.countP (Job.Owes s) }

def View.push (s : SensorType) (job : Job) : View :=
  { v with
    settling := [job].filter (·.settles = some s) ++ v.settling
    owed := v.owed + [job].countP (Job.Owes s) }

def View.send (r : Request) : View := { v with requests := v.requests ++ [r] }

variable (c : Sensor)

@[simp] theorem view_setSensor_self :
    (w.setSensor s c).view s = { w.view s with sensor := c } := by
  simp [view, setSensor]

theorem view_setSensor_of_ne (h : t ≠ s) : (w.setSensor s c).view t = w.view t := by
  simp [view, setSensor, h]

@[simp] theorem view_setCounts_self (k : Counts) :
    (w.setCounts s k).view s = { w.view s with counts := k } := by
  simp [view, setCounts]

theorem view_setCounts_of_ne (k : Counts) (h : t ≠ s) : (w.setCounts s k).view t = w.view t := by
  simp [view, setCounts, h]

theorem view_dropJob {job : Job} {rest : List Job} (h : w.queue = job :: rest) (s : SensorType) :
    w.view s = (w.dropJob.view s).push s job := by
  simp only [view, dropJob, View.push, h, List.filter_cons, List.countP_cons, List.filter_nil,
    List.countP_nil, List.tail_cons, Nat.zero_add]
  split <;> rfl

@[simp] theorem view_enqueue (jobs : List Job) :
    (w.enqueue jobs).view s = (w.view s).enqueue s jobs := by
  simp [view, World.enqueue, View.enqueue]

@[simp] theorem view_send_self {r : Request} (h : r.sensor = s) :
    (w.send r).view s = (w.view s).send r := by
  simp [view, World.send, View.send, h]

theorem view_send_of_ne {r : Request} (h : r.sensor ≠ s) : (w.send r).view s = w.view s := by
  simp [view, World.send, h]

theorem View.enqueue_eq {v : View} {jobs : List Job}
    (h : ∀ job ∈ jobs, job.settles ≠ some s ∧ ¬ job.Owes s) : v.enqueue s jobs = v := by
  have hfilter : jobs.filter (·.settles = some s) = [] :=
    List.filter_eq_nil_iff.mpr fun job hjob => by simpa using (h job hjob).1
  have hcount : jobs.countP (Job.Owes s) = 0 :=
    List.countP_eq_zero.mpr fun job hjob => by simpa using (h job hjob).2
  rw [View.enqueue, hfilter, hcount, List.append_nil, Nat.add_zero]

theorem View.push_eq {v : View} {job : Job} (h : job.settles ≠ some s ∧ ¬ job.Owes s) :
    v.push s job = v := by
  simp [View.push, h.1, h.2]

/-! ## Phases -/

/-- The calls about a sensor that are in flight and what the service holds meanwhile, when there
are any: a `Release`, the `Claim` of a promise, or both in this order. -/
inductive Link (s : SensorType) : Option ℕ → List Request → List Reply → Bool → Prop where
  | releasing : Link s none [.release s] [] true
  | released : Link s none [] [.released s] false
  | asking (p : ℕ) : Link s (some p) [.claim s p] [] false
  | askingReleasing (p : ℕ) : Link s (some p) [.release s, .claim s p] [] true
  | askingReleased (p : ℕ) : Link s (some p) [.claim s p] [.released s] false
  | answeredReleased (p : ℕ) (ok : Bool) : Link s (some p) [] [.released s, .claimed s p ok] ok
  | answered (p : ℕ) (ok : Bool) : Link s (some p) [] [.claimed s p ok] ok

structure Sensor.Waits (promise : Option ℕ) : Prop where
  claimed : c.claimed = 0
  claiming : c.claiming = promise
  pending : ∀ p, promise = some p → ∃ joined, c.promise p = .pending joined

/-- The last number says how many more `Claim`s were acknowledged than `Release`s were called. -/
inductive Phase (s : SensorType) (c : Sensor) :
    List Job → List Request → List Reply → Bool → ℕ → Prop where
  /-- The reply to the last claim was `ok`, and some who joined are still to learn of it. -/
  | passing (ok : Bool) (n : ℕ) (hclaiming : c.claiming = none)
      (hclaimed : if ok then 0 < c.claimed else c.claimed = 0) :
      Phase s c (List.replicate n (.claimSettled s false ok)) [] [] ok ok.toNat
  | waiting {promise : Option ℕ} {requests : List Request} {replies : List Reply} {remote : Bool}
      (hwaits : c.Waits promise) (hlink : Link s promise requests replies remote) :
      Phase s c [] requests replies remote 0
  | settling (ok : Bool) (n : ℕ) (hclaimed : c.claimed = 0)
      (hclaiming : ∃ p, c.claiming = some p ∧ c.promise p = .settled ok) :
      Phase s c (.claimSettled s true ok :: List.replicate n (.claimSettled s false ok)) [] [] ok
        ok.toNat

structure View.Adds : Prop where
  claimed : v.sensor.claimed + v.counts.released = v.counts.succeeded
  told : v.counts.told + v.owed = v.counts.succeeded
  released : v.counts.released ≤ v.counts.told

structure View.Ok (s : SensorType) (v : View) : Prop where
  phase : ∃ d, Phase s v.sensor v.settling v.requests v.replies v.remote d ∧
    v.counts.acks = v.counts.releases + d
  adds : v.Adds

namespace Link

variable {promise : Option ℕ} {requests : List Request} {replies : List Reply} {remote : Bool}

theorem claim (h : Link s none requests replies remote) (p : ℕ) :
    Link s (some p) (requests ++ [.claim s p]) replies remote := by
  cases h with
  | releasing => exact .askingReleasing p
  | released => exact .askingReleased p

theorem serveRelease (h : Link s promise (.release s :: requests) replies remote) :
    Link s promise requests (replies ++ [.released s]) false := by
  cases h with
  | releasing => exact .released
  | askingReleasing p => exact .askingReleased p

theorem serveClaim {p : ℕ} (h : Link s promise (.claim s p :: requests) replies remote)
    (ok : Bool) : remote = false ∧ Link s promise requests (replies ++ [.claimed s p ok]) ok := by
  cases h with
  | asking => exact ⟨rfl, .answered p ok⟩
  | askingReleased => exact ⟨rfl, .answeredReleased p ok⟩

theorem deliverReleased (h : Link s promise requests (.released s :: replies) remote) :
    (promise = none ∧ requests = [] ∧ replies = [] ∧ remote = false) ∨
      Link s promise requests replies remote := by
  cases h with
  | released => exact .inl ⟨rfl, rfl, rfl, rfl⟩
  | askingReleased p => exact .inr (.asking p)
  | answeredReleased p => exact .inr (.answered p remote)

theorem deliverClaimed {p : ℕ} {ok : Bool}
    (h : Link s promise requests (.claimed s p ok :: replies) remote) :
    promise = some p ∧ requests = [] ∧ replies = [] ∧ remote = ok := by
  cases h with
  | answered => exact ⟨rfl, rfl, rfl, rfl⟩

end Link

namespace Phase

variable {c : Sensor} {settling : List Job} {requests : List Request} {replies : List Reply}
  {remote : Bool} {d : ℕ}

section

variable (h : Phase s c settling requests replies remote d)
include h

theorem held (hclaimed : c.claimed ≠ 0) :
    0 < c.claimed ∧ c.claiming = none ∧ requests = [] ∧ replies = [] ∧ remote = true ∧ d = 1 := by
  cases h with
  | passing _ n hclaiming hcount =>
    cases remote with
    | false => exact absurd hcount hclaimed
    | true => exact ⟨hcount, hclaiming, rfl, rfl, rfl, rfl⟩
  | waiting hwaits _ => exact absurd hwaits.claimed hclaimed
  | settling _ n hcount _ => exact absurd hcount hclaimed

theorem bounds : 0 ≤ c.claimed ∧ d ≤ 1 := by
  cases h with
  | passing _ n _ hcount =>
    refine ⟨?_, Bool.toNat_le _⟩
    split at hcount <;> omega
  | waiting hwaits _ => exact ⟨Int.le_of_eq hwaits.claimed.symm, Nat.zero_le _⟩
  | settling _ n hcount _ => exact ⟨Int.le_of_eq hcount.symm, Bool.toNat_le _⟩

theorem rest (hsettling : settling = [])
    (hrequests : requests = []) (hreplies : replies = []) :
    c.claiming = none ∧ (remote = true ↔ 0 < c.claimed) := by
  cases h with
  | passing _ n hclaiming hcount =>
    refine ⟨hclaiming, ?_⟩
    cases remote with
    | false =>
      have hzero : c.claimed = 0 := hcount
      simp [hzero]
    | true =>
      have hpos : 0 < c.claimed := hcount
      simp [hpos]
  | waiting _ hlink => cases hlink <;> simp at hrequests hreplies
  | settling => cases hsettling

end

theorem unclaimed (h : Phase s c [] requests replies remote d) (hclaimed : c.claimed = 0) :
    d = 0 ∧ ((c.claiming = none ∧ requests = [] ∧ replies = [] ∧ remote = false) ∨
      ∃ promise, c.Waits promise ∧ Link s promise requests replies remote) := by
  generalize hsettling : ([] : List Job) = settling at h
  cases h with
  | passing _ n hclaiming hcount =>
    cases remote with
    | false => exact ⟨rfl, .inl ⟨hclaiming, rfl, rfl, rfl⟩⟩
    | true =>
      have hpos : 0 < c.claimed := hcount
      omega
  | waiting hwaits hlink => exact ⟨rfl, .inr ⟨_, hwaits, hlink⟩⟩
  | settling => cases hsettling

theorem settles {first ok : Bool} {rest : List Job}
    (h : Phase s c (.claimSettled s first ok :: rest) requests replies remote d) :
    ∃ n, rest = List.replicate n (.claimSettled s false ok) ∧
      (first = false → c.claiming = none) ∧ (if ok then 0 ≤ c.claimed else c.claimed = 0) ∧
      requests = [] ∧ replies = [] ∧ remote = ok ∧ d = ok.toNat := by
  generalize hsettling : Job.claimSettled s first ok :: rest = settling at h
  cases h with
  | passing _ n hclaiming hcount =>
    cases n with
    | zero => cases hsettling
    | succ n =>
      rw [List.replicate_succ] at hsettling
      cases hsettling
      refine ⟨n, rfl, fun _ => hclaiming, ?_, rfl, rfl, rfl, rfl⟩
      cases remote with
      | false => exact hcount
      | true => exact Int.le_of_lt hcount
  | waiting => cases hsettling
  | settling _ n hcount _ =>
    cases hsettling
    refine ⟨n, rfl, Bool.noConfusion, ?_, rfl, rfl, rfl, rfl⟩
    cases remote with
    | false => exact hcount
    | true => exact Int.le_of_eq hcount.symm

theorem waits (h : Phase s c settling requests replies remote d)
    (hflight : requests ≠ [] ∨ replies ≠ []) :
    settling = [] ∧ d = 0 ∧ ∃ promise, c.Waits promise ∧ Link s promise requests replies remote := by
  cases h with
  | waiting hwaits hlink => exact ⟨rfl, rfl, _, hwaits, hlink⟩
  | passing | settling => exact absurd hflight (by simp)

end Phase

/-! ## What the calls do to the view of their sensor -/

def View.succeed (v : View) : View :=
  { v with
    sensor := { v.sensor with claimed := v.sensor.claimed + 1 }
    counts := { v.counts with succeeded := v.counts.succeeded + 1 } }

def View.owe (v : View) : View := { v with owed := v.owed + 1 }

def View.release (v : View) : View :=
  { v with
    sensor := { v.sensor with claimed := v.sensor.claimed + -1 }
    counts := { v.counts with released := v.counts.released + 1 } }

def View.releases (v : View) : View :=
  { v with counts := { v.counts with releases := v.counts.releases + 1 } }

def View.deleteClaiming (v : View) : View := { v with sensor := { v.sensor with claiming := none } }

@[simp] theorem View.enqueue_told (v : View) : v.enqueue s [.told s true] = v.owe := by
  simp [View.enqueue, View.owe, Job.settles, Job.Owes]

@[simp] theorem View.enqueue_claimReturned (v : View) :
    v.enqueue s [.claimReturned s true] = v.owe := by
  simp [View.enqueue, View.owe, Job.settles, Job.Owes]

@[simp] theorem View.enqueue_client (v : View) : v.enqueue s [.client] = v :=
  View.enqueue_eq (by simp [Job.settles, Job.Owes])

@[simp] theorem View.enqueue_claimReturned_false (v : View) :
    v.enqueue s [.claimReturned t false] = v :=
  View.enqueue_eq (by simp [Job.settles, Job.Owes])

theorem View.enqueue_told_of_ne (v : View) (ok : Bool) (h : t ≠ s) : v.enqueue t [.told s ok] = v :=
  View.enqueue_eq (by simp [Job.settles, Job.Owes, h.symm])

theorem View.enqueue_claimReturned_of_ne (v : View) (ok : Bool) (h : t ≠ s) :
    v.enqueue t [.claimReturned s ok] = v :=
  View.enqueue_eq (by simp [Job.settles, Job.Owes, h.symm])

@[simp] theorem view_succeed_self : (w.succeed s).view s = (w.view s).succeed := by
  rw [World.succeed, countSucceeded, view_setCounts_self, addClaimed, view_setSensor_self]
  rfl

theorem view_succeed_of_ne (h : t ≠ s) : (w.succeed s).view t = w.view t := by
  rw [World.succeed, countSucceeded, addClaimed, view_setCounts_of_ne _ h, view_setSensor_of_ne _ h]

@[simp] theorem view_deleteClaiming_self :
    (w.deleteClaiming s).view s = (w.view s).deleteClaiming := view_setSensor_self _

theorem view_deleteClaiming_of_ne (h : t ≠ s) : (w.deleteClaiming s).view t = w.view t :=
  view_setSensor_of_ne _ h

theorem View.Adds.succeed {v : View} (h : v.Adds) : v.succeed.owe.Adds := by
  have hcount := h.claimed
  have htold := h.told
  refine ⟨?_, ?_, h.released⟩
  · change v.sensor.claimed + 1 + v.counts.released = ((v.counts.succeeded + 1 : ℕ) : ℤ)
    omega
  · change v.counts.told + (v.owed + 1) = v.counts.succeeded + 1
    omega

theorem View.Adds.release {v : View} (h : v.Adds) (hreleased : v.counts.released < v.counts.told) :
    v.release.Adds := by
  have hcount := h.claimed
  refine ⟨?_, h.told, hreleased⟩
  change v.sensor.claimed + -1 + ((v.counts.released + 1 : ℕ) : ℤ) = v.counts.succeeded
  omega

namespace View.Ok

variable {v : View}

section

variable (h : v.Ok s)
include h

theorem more (hsettling : v.settling = []) (hclaimed : v.sensor.claimed ≠ 0) :
    v.succeed.owe.Ok s := by
  obtain ⟨d, hphase, hacks⟩ := h.phase
  obtain ⟨hpos, hclaiming, hrequests, hreplies, hremote, rfl⟩ := hphase.held hclaimed
  have hmore : 0 < v.sensor.claimed + 1 := by omega
  refine ⟨⟨1, ?_, hacks⟩, h.adds.succeed⟩
  change Phase s { v.sensor with claimed := v.sensor.claimed + 1 } v.settling v.requests v.replies
    v.remote 1
  rw [hsettling, hrequests, hreplies, hremote]
  exact .passing true 0 hclaiming hmore

theorem less (hsettling : v.settling = []) (hclaimed : 1 < v.sensor.claimed)
    (hreleased : v.counts.released < v.counts.told) : v.release.Ok s := by
  obtain ⟨d, hphase, hacks⟩ := h.phase
  obtain ⟨hpos, hclaiming, hrequests, hreplies, hremote, rfl⟩ := hphase.held (by omega)
  have hless : 0 < v.sensor.claimed + -1 := by omega
  refine ⟨⟨1, ?_, hacks⟩, h.adds.release hreleased⟩
  change Phase s { v.sensor with claimed := v.sensor.claimed + -1 } v.settling v.requests v.replies
    v.remote 1
  rw [hsettling, hrequests, hreplies, hremote]
  exact .passing true 0 hclaiming hless

theorem last (hsettling : v.settling = []) (hclaimed : v.sensor.claimed = 1)
    (hreleased : v.counts.released < v.counts.told) :
    v.sensor.claiming = none ∧ (v.release.send (.release s)).releases.Ok s := by
  obtain ⟨d, hphase, hacks⟩ := h.phase
  obtain ⟨hpos, hclaiming, hrequests, hreplies, hremote, rfl⟩ := hphase.held (by omega)
  have hnone : v.sensor.claimed + -1 = 0 := by omega
  have hadds := h.adds.release hreleased
  refine ⟨hclaiming, ⟨0, ?_, hacks⟩, ⟨hadds.claimed, hadds.told, hadds.released⟩⟩
  change Phase s { v.sensor with claimed := v.sensor.claimed + -1 } v.settling
    (v.requests ++ [.release s]) v.replies v.remote 0
  rw [hsettling, hrequests, hreplies, hremote]
  exact .waiting ⟨hnone, hclaiming, fun p hp => nomatch hp⟩ .releasing

theorem first (hsettling : v.settling = []) (hclaimed : v.sensor.claimed = 0)
    (hclaiming : v.sensor.claiming = none) :
    ({ v with sensor := v.sensor.newPromise }.send (.claim s v.sensor.promises)).Ok s := by
  obtain ⟨d, hphase, hacks⟩ := h.phase
  rw [hsettling] at hphase
  obtain ⟨rfl, hcases⟩ := hphase.unclaimed hclaimed
  have hwaits : v.sensor.newPromise.Waits (some v.sensor.promises) := by
    refine ⟨hclaimed, rfl, fun p hp => ⟨0, ?_⟩⟩
    cases hp
    exact Function.update_self _ _ _
  refine ⟨⟨0, ?_, hacks⟩, ⟨h.adds.claimed, h.adds.told, h.adds.released⟩⟩
  change Phase s v.sensor.newPromise v.settling (v.requests ++ [.claim s v.sensor.promises]) v.replies
    v.remote 0
  rw [hsettling]
  obtain ⟨-, hrequests, hreplies, hremote⟩ | ⟨promise, hpromise, hlink⟩ := hcases
  · rw [hrequests, hreplies, hremote]
    exact .waiting hwaits (.asking _)
  · obtain rfl : promise = none := hpromise.claiming.symm.trans hclaiming
    exact .waiting hwaits (hlink.claim _)

theorem join (hsettling : v.settling = []) (hclaimed : v.sensor.claimed = 0) {p : ℕ}
    (hclaiming : v.sensor.claiming = some p) : ∃ joined, v.sensor.promise p = .pending joined ∧
      { v with sensor := v.sensor.join p joined }.Ok s := by
  obtain ⟨d, hphase, hacks⟩ := h.phase
  rw [hsettling] at hphase
  obtain ⟨rfl, ⟨hnone, -⟩ | ⟨promise, hpromise, hlink⟩⟩ := hphase.unclaimed hclaimed
  · rw [hclaiming] at hnone
    cases hnone
  · obtain rfl : promise = some p := hpromise.claiming.symm.trans hclaiming
    obtain ⟨joined, hjoined⟩ := hpromise.pending p rfl
    have hwaits : (v.sensor.join p joined).Waits (some p) := by
      refine ⟨hclaimed, hclaiming, fun q hq => ⟨joined + 1, ?_⟩⟩
      cases hq
      exact Function.update_self _ _ _
    refine ⟨joined, hjoined, ⟨0, ?_, hacks⟩, ⟨h.adds.claimed, h.adds.told, h.adds.released⟩⟩
    rw [hsettling]
    exact .waiting hwaits hlink

theorem granted {first : Bool} {rest : List Job}
    (hsettling : v.settling = .claimSettled s first true :: rest) : { v with
      settling := rest
      sensor := if first then { v.sensor with claiming := none } else v.sensor }.succeed.owe.Ok s := by
  obtain ⟨d, hphase, hacks⟩ := h.phase
  rw [hsettling] at hphase
  obtain ⟨n, rfl, hclaiming, hcount, hrequests, hreplies, hremote, rfl⟩ := hphase.settles
  have hmore : 0 < v.sensor.claimed + 1 := by
    have hle : 0 ≤ v.sensor.claimed := hcount
    omega
  cases first with
  | false =>
    refine ⟨⟨1, ?_, hacks⟩, View.Adds.succeed ⟨h.adds.claimed, h.adds.told, h.adds.released⟩⟩
    change Phase s { v.sensor with claimed := v.sensor.claimed + 1 } _ v.requests v.replies v.remote 1
    rw [hrequests, hreplies, hremote]
    exact .passing true n (hclaiming rfl) hmore
  | true =>
    refine ⟨⟨1, ?_, hacks⟩, View.Adds.succeed ⟨h.adds.claimed, h.adds.told, h.adds.released⟩⟩
    change Phase s { v.sensor with claiming := none, claimed := v.sensor.claimed + 1 } _ v.requests
      v.replies v.remote 1
    rw [hrequests, hreplies, hremote]
    exact .passing true n rfl hmore

theorem refused {first : Bool} {rest : List Job}
    (hsettling : v.settling = .claimSettled s first false :: rest) :
    { v with settling := rest }.deleteClaiming.Ok s := by
  obtain ⟨d, hphase, hacks⟩ := h.phase
  rw [hsettling] at hphase
  obtain ⟨n, rfl, -, hcount, hrequests, hreplies, hremote, rfl⟩ := hphase.settles
  refine ⟨⟨0, ?_, hacks⟩, ⟨h.adds.claimed, h.adds.told, h.adds.released⟩⟩
  change Phase s { v.sensor with claiming := none } _ v.requests v.replies v.remote 0
  rw [hrequests, hreplies, hremote]
  exact .passing false n rfl hcount

theorem tell {owed : ℕ} (howed : v.owed = owed + 1) :
    { v with owed := owed, counts := { v.counts with told := v.counts.told + 1 } }.Ok s := by
  have htold := h.adds.told
  have hreleased := h.adds.released
  refine ⟨h.phase, ⟨h.adds.claimed, ?_, ?_⟩⟩
  · change v.counts.told + 1 + owed = v.counts.succeeded
    omega
  · change v.counts.released ≤ v.counts.told + 1
    omega

theorem waiting (hflight : v.requests ≠ [] ∨ v.replies ≠ []) :
    v.settling = [] ∧ v.counts.acks = v.counts.releases ∧
      ∃ promise, v.sensor.Waits promise ∧ Link s promise v.requests v.replies v.remote := by
  obtain ⟨d, hphase, hacks⟩ := h.phase
  obtain ⟨hsettling, rfl, hlink⟩ := hphase.waits hflight
  exact ⟨hsettling, hacks, hlink⟩

end

theorem of_link {promise : Option ℕ} {requests : List Request} {replies : List Reply} {remote : Bool}
    (h : v.Ok s) (hsettling : v.settling = []) (hacks : v.counts.acks = v.counts.releases)
    (hwaits : v.sensor.Waits promise) (hlink : Link s promise requests replies remote) :
    { v with requests := requests, replies := replies, remote := remote }.Ok s := by
  refine ⟨⟨0, ?_, hacks⟩, ⟨h.adds.claimed, h.adds.told, h.adds.released⟩⟩
  change Phase s v.sensor v.settling requests replies remote 0
  rw [hsettling]
  exact .waiting hwaits hlink

theorem serveRelease {requests : List Request} (h : v.Ok s)
    (hrequests : v.requests = .release s :: requests) :
    { v with requests := requests, replies := v.replies ++ [Reply.released s], remote := false }.Ok s := by
  obtain ⟨hsettling, hacks, promise, hwaits, hlink⟩ :=
    h.waiting (.inl (hrequests ▸ List.cons_ne_nil _ _))
  rw [hrequests] at hlink
  exact h.of_link hsettling hacks hwaits hlink.serveRelease

theorem serveClaim {p : ℕ} {requests : List Request} (h : v.Ok s)
    (hrequests : v.requests = .claim s p :: requests) (ok : Bool) : v.remote = false ∧
      { v with requests := requests, replies := v.replies ++ [Reply.claimed s p ok], remote := ok }.Ok s := by
  obtain ⟨hsettling, hacks, promise, hwaits, hlink⟩ :=
    h.waiting (.inl (hrequests ▸ List.cons_ne_nil _ _))
  rw [hrequests] at hlink
  obtain ⟨hremote, hlink⟩ := hlink.serveClaim ok
  exact ⟨hremote, h.of_link hsettling hacks hwaits hlink⟩

theorem deliverReleased {replies : List Reply} (h : v.Ok s)
    (hreplies : v.replies = .released s :: replies) : { v with replies := replies }.Ok s := by
  obtain ⟨hsettling, hacks, promise, hwaits, hlink⟩ :=
    h.waiting (.inr (hreplies ▸ List.cons_ne_nil _ _))
  rw [hreplies] at hlink
  obtain ⟨rfl, hrequests, rfl, hremote⟩ | hlink := hlink.deliverReleased
  · refine ⟨⟨0, ?_, hacks⟩, ⟨h.adds.claimed, h.adds.told, h.adds.released⟩⟩
    change Phase s v.sensor v.settling v.requests [] v.remote 0
    rw [hsettling, hrequests, hremote]
    exact .passing false 0 hwaits.claiming hwaits.claimed
  · exact h.of_link hsettling hacks hwaits hlink

theorem deliverClaimed {p : ℕ} {ok : Bool} {replies : List Reply} (h : v.Ok s)
    (hreplies : v.replies = .claimed s p ok :: replies) :
    v.settling = [] ∧ v.sensor.claiming = some p ∧ ∃ joined, v.sensor.promise p = .pending joined ∧
      { v with
        sensor := { v.sensor with promise := Function.update v.sensor.promise p (.settled ok) }
        settling := .claimSettled s true ok :: List.replicate joined (.claimSettled s false ok)
        replies := replies
        counts := if ok then { v.counts with acks := v.counts.acks + 1 } else v.counts }.Ok s := by
  obtain ⟨hsettling, hacks, promise, hwaits, hlink⟩ :=
    h.waiting (.inr (hreplies ▸ List.cons_ne_nil _ _))
  rw [hreplies] at hlink
  obtain ⟨rfl, hrequests, rfl, hremote⟩ := hlink.deliverClaimed
  obtain ⟨joined, hjoined⟩ := hwaits.pending p rfl
  have hsettled : Function.update v.sensor.promise p (.settled ok) p = .settled ok :=
    Function.update_self _ _ _
  refine ⟨hsettling, hwaits.claiming, joined, hjoined, ?_⟩
  have hphase : Phase s
      { v.sensor with promise := Function.update v.sensor.promise p (.settled ok) }
      (.claimSettled s true ok :: List.replicate joined (.claimSettled s false ok)) v.requests []
      v.remote ok.toNat := by
    rw [hrequests, hremote]
    exact .settling ok joined hwaits.claimed ⟨p, hwaits.claiming, hsettled⟩
  cases ok with
  | false => exact ⟨⟨0, hphase, hacks⟩, ⟨h.adds.claimed, h.adds.told, h.adds.released⟩⟩
  | true =>
    refine ⟨⟨1, hphase, ?_⟩, ⟨h.adds.claimed, h.adds.told, h.adds.released⟩⟩
    change v.counts.acks + 1 = v.counts.releases + 1
    rw [hacks]

end View.Ok

/-! ## The invariant -/

/-- The jobs that settle claims are in front of all others, none waits while code of a client runs,
and every sensor is in order. -/
structure Inv (w : World) : Prop where
  front : w.queue.Pairwise fun job later => later.settles.isSome → job.settles.isSome
  quiet : w.active → ∀ job ∈ w.queue, job.settles = none
  ok : ∀ s, (w.view s).Ok s

theorem Inv.new (hasAmbientLight hasProximity : Bool) :
    Inv (World.new hasAmbientLight hasProximity) where
  front := .nil
  quiet := Bool.noConfusion
  ok _ := ⟨⟨0, .passing false 0 rfl rfl, rfl⟩, ⟨rfl, rfl, Nat.le_refl 0⟩⟩

namespace Inv

variable {w' : World}

theorem settling (h : Inv w) (hactive : w.active) (s : SensorType) : (w.view s).settling = [] :=
  List.filter_eq_nil_iff.mpr fun job hjob => by simp [h.quiet hactive job hjob]

theorem of_view (h : Inv w) {kept jobs : List Job} (hkept : kept.Sublist w.queue)
    (hqueue : w'.queue = kept ++ jobs) (hjobs : ∀ job ∈ jobs, job.settles = none)
    (hactive : w'.active → ∀ job ∈ kept, job.settles = none)
    (hother : ∀ t, t ≠ s → w'.view t = w.view t) (hself : (w'.view s).Ok s) : Inv w' where
  front := by
    rw [hqueue, List.pairwise_append]
    refine ⟨h.front.sublist hkept, ?_, ?_⟩
    · refine List.pairwise_of_forall_mem_list fun job _ later hlater hsome => ?_
      rw [hjobs later hlater] at hsome
      cases hsome
    · intro job _ later hlater hsome
      rw [hjobs later hlater] at hsome
      cases hsome
  quiet hrun job hjob := by
    rw [hqueue, List.mem_append] at hjob
    obtain hjob | hjob := hjob
    · exact hactive hrun job hjob
    · exact hjobs job hjob
  ok t := by
    by_cases ht : t = s
    · rw [ht]
      exact hself
    · rw [hother t ht]
      exact h.ok t

theorem of_same (h : Inv w) (hqueue : w'.queue = w.queue)
    (hactive : w'.active → ∀ job ∈ w.queue, job.settles = none)
    (hother : ∀ t, t ≠ s → w'.view t = w.view t) (hself : (w'.view s).Ok s) : Inv w' := by
  have hjobs : w'.queue = w.queue ++ ([] : List Job) := by rw [hqueue, List.append_nil]
  exact h.of_view (.refl _) hjobs (by simp) hactive hother hself

end Inv

end SensorDaemon
