import GnomeShellMobile.AutoBacklight.Enabling

/-!
# AutoBacklight — whether it is enabled when it should be

* `Known`: what clients know of their claims, and whether the sensor is there, as the daemon's
  operations leave them.
* `Synced`: enabled only when wanted, with one claim, and on the way when it is wanted and not
  enabled. `Synced.step` keeps it in every step that meets `Timely`.
* `run_synced`: in every run of such steps the component is enabled when it should be, and holds the
  claim that goes with it.
-/

namespace AutoBacklight

open SensorDaemon

variable {w w' : World} {s s' : State} {t u : SensorType}

/-! ## What the daemon leaves to its clients -/

structure Known (t : SensorType) (w w' : World) : Prop where
  available : w'.hasAmbientLight = w.hasAmbientLight
  told : (w'.counts t).told = (w.counts t).told
  released : (w'.counts t).released = (w.counts t).released

namespace Known

theorem trans {w₁ w₂ w₃ : World} (h₁ : Known t w₁ w₂) (h₂ : Known t w₂ w₃) : Known t w₁ w₃ :=
  ⟨h₂.available.trans h₁.available, h₂.told.trans h₁.told, h₂.released.trans h₁.released⟩

theorem setCounts {k : Counts} (h : t = u → k.told = (w.counts u).told ∧
    k.released = (w.counts u).released) : Known t w (w.setCounts u k) := by
  by_cases htu : t = u
  · obtain ⟨htold, hreleased⟩ := h htu
    subst htu
    refine ⟨rfl, ?_, ?_⟩
    · simpa [World.setCounts] using htold
    · simpa [World.setCounts] using hreleased
  · refine ⟨rfl, ?_, ?_⟩ <;> simp [World.setCounts, htu]

variable (w)

theorem succeed : Known t w (w.succeed u) := by
  have hadd : Known t w (w.addClaimed u 1) := ⟨rfl, rfl, rfl⟩
  refine hadd.trans (setCounts ?_)
  exact fun _ => ⟨rfl, rfl⟩

theorem claim : Known t w (w.claim u) := by
  rw [World.claim]
  split
  · rw [World.claimSensor]
    split
    · split
      · rw [World.join]
        split
        · exact ⟨rfl, rfl, rfl⟩
        · exact ⟨rfl, rfl, rfl⟩
      · exact ⟨rfl, rfl, rfl⟩
    · exact ⟨rfl, rfl, rfl⟩
  · exact (succeed w).trans ⟨rfl, rfl, rfl⟩

theorem releaseSensor : Known t w (w.releaseSensor u) := by
  rw [World.releaseSensor]
  split
  · exact ⟨rfl, rfl, rfl⟩
  · have hsend : Known t w ((w.addClaimed u (-1)).send (.release u)) := ⟨rfl, rfl, rfl⟩
    exact hsend.trans (setCounts fun _ => ⟨rfl, rfl⟩)

theorem release : Known t (w.countReleased u) (w.release u) := by
  rw [World.release]
  split
  · exact releaseSensor _
  · split
    · exact ⟨rfl, rfl, rfl⟩
    · exact ⟨rfl, rfl, rfl⟩

theorem countReleased (h : t ≠ u) : Known t w (w.countReleased u) :=
  setCounts fun htu => absurd htu h

theorem claimSettled (first ok : Bool) : Known t w (w.claimSettled u first ok) := by
  cases ok with
  | false => exact ⟨rfl, rfl, rfl⟩
  | true =>
    cases first with
    | false => exact (succeed w).trans ⟨rfl, rfl, rfl⟩
    | true =>
      have hdelete : Known t w (w.deleteClaiming u) := ⟨rfl, rfl, rfl⟩
      exact hdelete.trans ((succeed _).trans ⟨rfl, rfl, rfl⟩)

theorem runJob {job : Job} (h : ∀ ok, job ≠ .told t ok) :
    Known t w (w.dropJob.runJob job) := by
  have hdrop : Known t w w.dropJob := ⟨rfl, rfl, rfl⟩
  cases job with
  | claimSettled u first ok => exact hdrop.trans (claimSettled _ first ok)
  | claimReturned u ok => exact ⟨rfl, rfl, rfl⟩
  | client => exact ⟨rfl, rfl, rfl⟩
  | told u ok =>
    have hne : t ≠ u := fun htu => h ok (by rw [htu])
    cases ok with
    | false => exact ⟨rfl, rfl, rfl⟩
    | true =>
      have htold : Known t w.dropJob (w.dropJob.countTold u) := setCounts fun htu => absurd htu hne
      exact hdrop.trans (htold.trans ⟨rfl, rfl, rfl⟩)

theorem deliver (reply : Reply) : Known t w (w.dropReply.deliver reply) := by
  cases reply with
  | released u => exact ⟨rfl, rfl, rfl⟩
  | claimed u p ok =>
    cases ok with
    | false => exact ⟨rfl, rfl, rfl⟩
    | true =>
      have hack : Known t w.dropReply (w.dropReply.countAck u) := by
        refine setCounts ?_
        exact fun _ => ⟨rfl, rfl⟩
      have hdrop : Known t w w.dropReply := ⟨rfl, rfl, rfl⟩
      exact hdrop.trans (hack.trans ⟨rfl, rfl, rfl⟩)

theorem serve (ok : Bool) (request : Request) :
    Known t w (w.dropRequest.serve ok request) := by
  cases request <;> exact ⟨rfl, rfl, rfl⟩

variable {w}

end Known

/-! ## In step with what is wanted -/

structure Agrees (s : State) : Prop where
  inv : Inv s.daemon
  calls : s.daemon.calls .ambientLight = s.claims
  held : (s.daemon.counts .ambientLight).told =
    (s.daemon.counts .ambientLight).released + s.enabled.toNat

structure Synced (s : State) : Prop extends Agrees s where
  wanted : s.enabled = true → s.wanted = true
  waits : s.wanted = true → s.enabled = true ∨ 0 < s.claims

theorem wanted_of_available {d : World} {enabled : Bool} {claims : ℕ}
    (h : d.hasAmbientLight = s.daemon.hasAmbientLight) :
    State.wanted { s with daemon := d, enabled := enabled, claims := claims } = s.wanted := by
  simp [State.wanted, State.available, World.sensorAvailable, h]

theorem Agrees.setActive (h : Agrees s) (active : Bool)
    (hquiet : active = true → ∀ job ∈ s.daemon.queue, job.settles = none) :
    Agrees (s.setActive active) where
  __ := h
  inv := h.inv.loop rfl (fun _ => rfl) hquiet

theorem Agrees.syncEnabled (h : Agrees s) (hactive : s.daemon.active = true) :
    Synced s.syncEnabled := by
  rw [State.syncEnabled]
  split
  next heq =>
    exact { h with wanted := fun henabled => heq ▸ henabled, waits := fun hwanted => .inl (heq.trans hwanted) }
  next hne =>
    split
    next hwanted =>
      have hknown : Known .ambientLight s.daemon s.daemon.claimAmbientLight := Known.claim _
      have hdisabled : s.enabled = false := by
        cases henabled : s.enabled with
        | false => rfl
        | true => exact absurd (henabled.trans hwanted.symm) hne
      refine ⟨⟨h.inv.claim hactive .ambientLight, ?_, ?_⟩, ?_, ?_⟩
      · change (s.daemon.claim .ambientLight).calls .ambientLight = s.claims + 1
        rw [calls_claim, h.calls]
      · change (s.daemon.claimAmbientLight.counts .ambientLight).told =
          (s.daemon.claimAmbientLight.counts .ambientLight).released + s.enabled.toNat
        rw [hknown.told, hknown.released, h.held]
      · intro henabled
        rw [hdisabled] at henabled
        cases henabled
      · exact fun _ => .inr (Nat.succ_pos _)
    next hunwanted =>
      have hdisabled : s.wanted = false := by simpa using hunwanted
      have henabled : s.enabled = true := by
        cases henabled : s.enabled with
        | true => rfl
        | false => exact absurd (henabled.trans hdisabled.symm) hne
      have hheld := h.held
      rw [henabled, Bool.toNat_true] at hheld
      have hrelease : s.daemon.CanRelease .ambientLight := ⟨hactive, by omega⟩
      have hcount : Known .ambientLight (s.daemon.countReleased .ambientLight)
          s.daemon.releaseAmbientLight := Known.release _
      have hreleased : ((s.daemon.countReleased .ambientLight).counts .ambientLight).released =
          (s.daemon.counts .ambientLight).released + 1 := by
        simp [World.countReleased, World.setCounts]
      have htold : ((s.daemon.countReleased .ambientLight).counts .ambientLight).told =
          (s.daemon.counts .ambientLight).told := by
        simp [World.countReleased, World.setCounts]
      refine ⟨⟨h.inv.release hrelease, ?_, ?_⟩, Bool.noConfusion, ?_⟩
      · change (s.daemon.release .ambientLight).calls .ambientLight = s.claims
        rw [calls_release, h.calls]
      · change (s.daemon.releaseAmbientLight.counts .ambientLight).told =
          (s.daemon.releaseAmbientLight.counts .ambientLight).released + 0
        rw [hcount.told, hcount.released, hreleased, htold, hheld]
      · have havailable : s.daemon.releaseAmbientLight.hasAmbientLight = s.daemon.hasAmbientLight :=
          hcount.available
        intro hwanted
        have hsame : s.wanted = true := (wanted_of_available havailable).symm.trans hwanted
        rw [hdisabled] at hsame
        cases hsame

theorem Synced.setActive (h : Synced s) (active : Bool)
    (hquiet : active = true → ∀ job ∈ s.daemon.queue, job.settles = none) :
    Synced (s.setActive active) :=
  { h.toAgrees.setActive active hquiet with
    wanted := h.wanted
    waits := h.waits }

theorem Synced.turn {f : State → State} (h : Synced s) (hturn : s.turn f = some s')
    (hf : Synced (s.setActive true) → Synced (f (s.setActive true))) : Synced s' := by
  rw [State.turn] at hturn
  split at hturn
  next hloops =>
    cases hturn
    have hquiet : true = true → ∀ job ∈ s.daemon.queue, job.settles = none := by
      simp [hloops.2]
    exact (hf (h.setActive true hquiet)).setActive false Bool.noConfusion
  next => cases hturn

/-! ## The condition on the steps -/

def State.tells (s : State) : Option Bool :=
  match s.daemon.queue with
  | .told .ambientLight ok :: _ => some ok
  | _ => none

/-- A step that `_syncEnabled` is prepared for. An `Inhibit` or `Uninhibit` that does not call it
changes nothing that is wanted, and a claim returns while it is wanted and alone: a successful one
when the component is not yet enabled, one that fails when it is not wanted any more, enabled, or
when there is another one. -/
def Timely (s : State) : Event → Prop
  | .inhibit => s.inhibitedCount = -1 → (s.ambientEnabled && s.available) = false
  | .uninhibit => s.inhibitedCount = 0 → (s.ambientEnabled && s.available) = false
  | .daemon .job =>
    ∀ ok ∈ s.tells, if ok then s.wanted = true ∧ s.enabled = false
      else s.wanted = true → s.enabled = false → 1 < s.claims
  | _ => True

instance (s : State) (e : Event) : Decidable (Timely s e) := by
  unfold Timely
  split <;> infer_instance

theorem Synced.setInhibitedCount {count : ℤ} (h : Synced s)
    (hwanted : State.wanted { s with inhibitedCount := count } = s.wanted) :
    Synced { s with inhibitedCount := count } where
  __ := h
  wanted henabled := hwanted.trans (h.wanted henabled)
  waits h' := h.waits (hwanted.symm.trans h')

theorem Synced.inhibit (h : Synced s) (hactive : s.daemon.active = true)
    (htimely : Timely s .inhibit) : Synced s.inhibit := by
  rw [State.inhibit]
  split
  next => exact Agrees.syncEnabled ⟨h.inv, h.calls, h.held⟩ hactive
  next hne =>
    have hcount : s.inhibitedCount + 1 ≠ 1 := hne
    refine h.setInhibitedCount ?_
    by_cases hone : s.inhibitedCount = -1
    · have hunwanted := htimely hone
      simp only [State.wanted, State.available, hone] at hunwanted ⊢
      simpa using hunwanted
    · have hbefore : s.inhibitedCount ≠ 0 := by omega
      have hafter : s.inhibitedCount + 1 ≠ 0 := by omega
      simp [State.wanted, hbefore, hafter]

theorem Synced.uninhibit (h : Synced s) (hactive : s.daemon.active = true)
    (htimely : Timely s .uninhibit) : Synced s.uninhibit := by
  rw [State.uninhibit]
  split
  next => exact Agrees.syncEnabled ⟨h.inv, h.calls, h.held⟩ hactive
  next hne =>
    have hcount : s.inhibitedCount - 1 ≠ 0 := hne
    refine h.setInhibitedCount ?_
    by_cases hzero : s.inhibitedCount = 0
    · have hunwanted := htimely hzero
      simp only [State.wanted, State.available, hzero] at hunwanted ⊢
      simpa using hunwanted
    · simp [State.wanted, hzero, hcount]

/-! ## The daemon's steps -/

theorem known_of_step {e : SensorDaemon.Event} (h : Inv w) (hstep : SensorDaemon.step w e = some w')
    (hclaim : e ≠ .claimAmbientLight) (hrelease : e ≠ .releaseAmbientLight)
    (havailable : ∀ value, e ≠ .hasAmbientLight value)
    (hjob : e = .job → ∀ ok rest, w.queue ≠ .told .ambientLight ok :: rest) :
    Known .ambientLight w w' ∧ w'.calls .ambientLight = w.calls .ambientLight := by
  cases e with
  | claimAmbientLight => exact absurd rfl hclaim
  | releaseAmbientLight => exact absurd rfl hrelease
  | hasAmbientLight value => exact absurd rfl (havailable value)
  | start =>
    obtain ⟨-, rfl⟩ : w.Loops ∧ { w with active := true } = w' := by
      simpa [SensorDaemon.step] using hstep
    exact ⟨⟨rfl, rfl, rfl⟩, rfl⟩
  | finish =>
    obtain ⟨-, rfl⟩ : w.active = true ∧ { w with active := false } = w' := by
      simpa [SensorDaemon.step] using hstep
    exact ⟨⟨rfl, rfl, rfl⟩, rfl⟩
  | defer =>
    obtain ⟨-, rfl⟩ : w.active = true ∧ w.enqueue [.client] = w' := by
      simpa [SensorDaemon.step] using hstep
    exact ⟨⟨rfl, rfl, rfl⟩, calls_enqueue_client⟩
  | claimProximity =>
    obtain ⟨-, rfl⟩ : w.active = true ∧ w.claimProximity = w' := by
      simpa [SensorDaemon.step] using hstep
    exact ⟨Known.claim w, calls_claim_of_ne (by decide)⟩
  | releaseProximity =>
    obtain ⟨-, rfl⟩ : w.CanRelease .proximity ∧ w.releaseProximity = w' := by
      simpa [SensorDaemon.step] using hstep
    exact ⟨(Known.countReleased w (by decide)).trans (Known.release w), calls_release⟩
  | job =>
    simp only [SensorDaemon.step] at hstep
    split at hstep
    next job rest _ hqueue =>
      cases hstep
      have hother : ∀ ok, job ≠ .told .ambientLight ok := fun ok hold =>
        hjob rfl ok rest (hold ▸ hqueue)
      exact ⟨Known.runJob w hother, h.calls_runJob hqueue hother⟩
    next => cases hstep
  | deliver =>
    simp only [SensorDaemon.step] at hstep
    split at hstep
    next => cases hstep
    next reply rest hreplies =>
      obtain ⟨-, rfl⟩ : w.Loops ∧ w.dropReply.deliver reply = w' := by simpa using hstep
      exact ⟨Known.deliver w reply, h.calls_deliver hreplies⟩
  | serve ok =>
    simp only [SensorDaemon.step] at hstep
    split at hstep
    next => cases hstep
    next request rest _ =>
      cases hstep
      exact ⟨Known.serve w ok request, calls_serve ok request⟩
  | hasProximity value =>
    cases hstep
    exact ⟨⟨rfl, rfl, rfl⟩, rfl⟩

theorem Synced.daemon (h : Synced s) {d : World} (hinv : Inv d)
    (hknown : Known .ambientLight s.daemon d ∧ d.calls .ambientLight = s.daemon.calls .ambientLight) :
    Synced { s with daemon := d } where
  inv := hinv
  calls := hknown.2.trans h.calls
  held := by
    change (d.counts .ambientLight).told = (d.counts .ambientLight).released + s.enabled.toNat
    rw [hknown.1.told, hknown.1.released, h.held]
  wanted henabled := (wanted_of_available hknown.1.available).trans (h.wanted henabled)
  waits hwanted := h.waits ((wanted_of_available hknown.1.available).symm.trans hwanted)

theorem Synced.told {ok : Bool} {rest : List Job} (h : Synced s)
    (hqueue : s.daemon.queue = .told .ambientLight ok :: rest) (hactive : s.daemon.active = false)
    (htimely : if ok then s.wanted = true ∧ s.enabled = false
      else s.wanted = true → s.enabled = false → 1 < s.claims) :
    Synced (({ s with daemon := s.daemon.dropJob.runJob (.told .ambientLight ok) } : State).claimReturned
      ok) := by
  have hinv := h.inv.runJob hqueue hactive
  have hcalls := calls_told hqueue
  rw [h.calls] at hcalls
  have hheld := h.held
  have havailable : (s.daemon.dropJob.runJob (.told .ambientLight ok)).hasAmbientLight =
      s.daemon.hasAmbientLight := by
    cases ok <;> rfl
  have hwanted : State.wanted (({ s with
      daemon := s.daemon.dropJob.runJob (.told .ambientLight ok) } : State).claimReturned ok) = s.wanted :=
    wanted_of_available havailable
  refine ⟨⟨hinv, ?_, ?_⟩, ?_, ?_⟩
  · change (s.daemon.dropJob.runJob (.told .ambientLight ok)).calls .ambientLight = s.claims - 1
    omega
  · cases ok with
    | false =>
      change (s.daemon.counts .ambientLight).told =
        (s.daemon.counts .ambientLight).released + (s.enabled || false).toNat
      rw [Bool.or_false, hheld]
    | true =>
      obtain ⟨-, hdisabled⟩ := htimely
      rw [hdisabled] at hheld
      change ((s.daemon.dropJob.countTold .ambientLight).counts .ambientLight).told =
        ((s.daemon.dropJob.countTold .ambientLight).counts .ambientLight).released +
          (s.enabled || true).toNat
      simpa [World.countTold, World.setCounts, World.dropJob] using hheld
  · intro henabled
    rw [hwanted]
    cases ok with
    | false => exact h.wanted ((Bool.or_false _).symm.trans henabled)
    | true => exact htimely.1
  · rw [hwanted]
    intro hwants
    cases ok with
    | true => exact .inl (Bool.or_true _)
    | false =>
      obtain henabled | hdisabled := Bool.eq_false_or_eq_true s.enabled
      · exact .inl (by rw [State.claimReturned, henabled, Bool.or_false])
      · have hmany := htimely hwants hdisabled
        refine .inr ?_
        change 0 < s.claims - 1
        omega

theorem daemonStep_cases {e : SensorDaemon.Event} (hstep : daemonStep s e = some s') :
    (∃ ok rest, e = .job ∧ s.daemon.queue = .told .ambientLight ok :: rest ∧
      s.daemon.active = false ∧
      s' = (({ s with daemon := s.daemon.dropJob.runJob (.told .ambientLight ok) } :
        State).claimReturned ok).setActive false) ∨
    (∃ d, SensorDaemon.step s.daemon e = some d ∧ s' = { s with daemon := d } ∧
      e ≠ .claimAmbientLight ∧ e ≠ .releaseAmbientLight ∧ (∀ value, e ≠ .hasAmbientLight value) ∧
      (e = .job → ∀ ok rest, s.daemon.queue ≠ .told .ambientLight ok :: rest)) := by
  cases e with
  | claimAmbientLight | releaseAmbientLight | hasAmbientLight value => cases hstep
  | job =>
    simp only [daemonStep] at hstep
    split at hstep
    next ok rest _ hqueue =>
      obtain ⟨t, ht, rfl⟩ := Option.map_eq_some_iff.mp hstep
      obtain ⟨d, hd, rfl⟩ := Option.map_eq_some_iff.mp ht
      simp only [SensorDaemon.step, hqueue] at hd
      split at hd
      next job later hactive heq =>
        cases heq
        cases hd
        exact .inl ⟨ok, rest, rfl, hqueue, hactive, rfl⟩
      next => cases hd
    next hother =>
      obtain ⟨d, hd, rfl⟩ := Option.map_eq_some_iff.mp hstep
      exact .inr ⟨d, hd, rfl, by simp, by simp, by simp, fun _ ok rest hqueue => hother ok rest rfl hqueue⟩
  | hasProximity value =>
    cases hstep
    exact .inr ⟨_, rfl, rfl, by simp, by simp, by simp, by simp⟩
  | start | finish | defer | claimProximity | releaseProximity | deliver | serve =>
    obtain ⟨d, hd, rfl⟩ := Option.map_eq_some_iff.mp hstep
    exact .inr ⟨d, hd, rfl, by simp, by simp, by simp, by simp⟩

theorem Synced.daemonStep {e : SensorDaemon.Event} (h : Synced s) (htimely : Timely s (.daemon e))
    (hstep : daemonStep s e = some s') : Synced s' := by
  obtain ⟨ok, rest, rfl, hqueue, hactive, rfl⟩ |
    ⟨d, hdaemon, rfl, hclaim, hrelease, havailable, hjob⟩ := daemonStep_cases hstep
  · refine (h.told hqueue hactive ?_).setActive false Bool.noConfusion
    exact htimely ok (by simp [State.tells, hqueue])
  · exact h.daemon (h.inv.step hdaemon)
      (known_of_step h.inv hdaemon hclaim hrelease havailable hjob)

theorem Synced.step {e : Event} (h : Synced s) (htimely : Timely s e) (hstep : step s e = some s') :
    Synced s' := by
  cases e with
  | inhibit => exact h.turn hstep fun h => h.inhibit rfl htimely
  | uninhibit => exact h.turn hstep fun h => h.uninhibit rfl htimely
  | ambientEnabled value =>
    refine h.turn (f := fun s => State.syncEnabled { s with ambientEnabled := value }) hstep fun h => ?_
    exact Agrees.syncEnabled ⟨h.inv, h.calls, h.held⟩ rfl
  | ambientLightAvailable value =>
    refine h.turn (f := fun s =>
      State.syncEnabled { s with daemon := { s.daemon with hasAmbientLight := value } }) hstep fun h => ?_
    exact Agrees.syncEnabled ⟨h.inv.loop rfl (fun _ => rfl) h.inv.quiet, h.calls, h.held⟩ rfl
  | daemon e => exact h.daemonStep htimely hstep

theorem Synced.new (ambientEnabled hasAmbientLight hasProximity : Bool) :
    Synced (State.new ambientEnabled hasAmbientLight hasProximity) := by
  refine Synced.setActive (Agrees.syncEnabled ?_ rfl) false Bool.noConfusion
  refine Agrees.setActive ⟨Inv.new _ _, rfl, rfl⟩ true ?_
  intro _ job hjob
  cases hjob

/-! ## Every run -/

/-- In every run of timely steps, when nothing about the sensor is under way the component is enabled
if and only if it is wanted, and it holds one claim when it is enabled and none otherwise. -/
theorem run_synced (ambientEnabled hasAmbientLight hasProximity : Bool)
    (h : Runs.Reach step Timely (State.new ambientEnabled hasAmbientLight hasProximity) s)
    (hrests : s.daemon.Rests .ambientLight) :
    (s.enabled = true ↔ s.inhibitedCount = 0 ∧ s.ambientEnabled = true ∧ s.available = true) ∧
      (s.daemon.sensors .ambientLight).claimed = if s.enabled then 1 else 0 := by
  have hsynced : Synced s := h.invariant (Synced.new _ _ _) fun _ _ _ hs ht hstep => hs.step ht hstep
  have hclaims : s.claims = 0 := hsynced.calls.symm.trans (hsynced.inv.calls_eq_zero hrests)
  have hclaimed := hsynced.inv.claimed_eq hrests
  have hheld := hsynced.held
  have hwanted : s.wanted = true ↔
      s.inhibitedCount = 0 ∧ s.ambientEnabled = true ∧ s.available = true := by
    simp [State.wanted, and_assoc]
  constructor
  · rw [← hwanted]
    refine ⟨hsynced.wanted, fun hwants => ?_⟩
    obtain henabled | hwaits := hsynced.waits hwants
    · exact henabled
    · omega
  · cases henabled : s.enabled with
    | false =>
      rw [henabled, Bool.toNat_false] at hheld
      rw [if_neg Bool.noConfusion]
      omega
    | true =>
      rw [henabled, Bool.toNat_true] at hheld
      rw [if_pos rfl]
      omega

/-- The claim returns before it is inhibited, and again after. -/
theorem run_synced_twice :
    let es : List Event := [.daemon (.serve true), .daemon .deliver, .daemon .job, .daemon .job,
      .daemon .job, .inhibit, .daemon (.serve true), .daemon .deliver, .daemon .job, .daemon .finish]
    ∃ s, Runs.run step (State.new true true true) es = some s ∧
      Runs.Allowed step Timely (State.new true true true) es ∧
      (s.enabled = true ↔ s.inhibitedCount = 0 ∧ s.ambientEnabled = true ∧ s.available = true) ∧
      (s.daemon.sensors .ambientLight).claimed = if s.enabled then 1 else 0 := by
  intro es
  have hrests : (Runs.run step (State.new true true true) es).map
      (fun s => decide (s.daemon.Rests .ambientLight)) = some true := by
    decide
  obtain ⟨s, hrun, hdecide⟩ := Option.map_eq_some_iff.mp hrests
  have hallowed : Runs.Allowed step Timely (State.new true true true) es := by
    decide
  exact ⟨s, hrun, hallowed, run_synced true true true (Runs.Reach.of_run es hallowed hrun)
    (of_decide_eq_true hdecide)⟩

def inhibitedInBetween : List Event :=
  [.inhibit, .daemon (.serve true), .daemon .deliver, .daemon .job, .daemon .job, .daemon .job]

/-- Then it is enabled and inhibited, and nothing is under way. -/
theorem not_run_synced : ¬ ∀ (ambientEnabled hasAmbientLight hasProximity : Bool) (s : State),
      Runs.Reachable step (State.new ambientEnabled hasAmbientLight hasProximity) s →
      s.daemon.Rests .ambientLight →
      (s.enabled = true ↔ s.inhibitedCount = 0 ∧ s.ambientEnabled = true ∧ s.available = true) ∧
        (s.daemon.sensors .ambientLight).claimed = if s.enabled then 1 else 0 := by
  intro h
  have hends : (Runs.run step (State.new true true true) inhibitedInBetween).map
      (fun s => (decide (s.daemon.Rests .ambientLight), s.enabled, s.inhibitedCount)) =
      some (true, true, 1) := by
    decide
  obtain ⟨s, hrun, hstate⟩ := Option.map_eq_some_iff.mp hends
  obtain ⟨hrests, henabled, hcount⟩ : decide (s.daemon.Rests .ambientLight) = true ∧
      s.enabled = true ∧ s.inhibitedCount = 1 := by
    simpa using hstate
  have hzero := ((h true true true s (Runs.Reachable.of_run _ hrun)
    (of_decide_eq_true hrests)).1.mp henabled).1
  omega

end AutoBacklight
