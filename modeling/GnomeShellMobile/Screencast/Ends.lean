import GnomeShellMobile.Screencast.Recorder
import Mathlib.Logic.Basic

/-!
# Screencast — what a recorder goes through

A recorder is starting, running or ended (`Sound`). `Advance` says what the service relies on when a
recorder reacts to something: the three are kept, nothing that is settled is settled again, and
`error` is only heard of a recorder whose session was active (`advance_onBusMessage` and the others).
-/

namespace Screencast

theorem Promise.settle_of_ne {promise : Promise} (h : promise ≠ .pending) (resolved : Bool) :
    promise.settle resolved = promise := by
  cases promise with
  | pending => exact absurd rfl h
  | settled => rfl
  | done => rfl

theorem modify_settle_of_not_mem {stops : List Promise} (h : .pending ∉ stops) (i : ℕ)
    (resolved : Bool) : stops.modify i (Promise.settle resolved) = stops := by
  apply List.ext_getElem?
  intro j
  rw [List.getElem?_modify]
  cases hget : stops[j]? with
  | none => simp
  | some promise =>
    have hne : promise ≠ .pending := fun heq => h (heq ▸ List.mem_of_getElem? hget)
    simp [Promise.settle_of_ne hne]

namespace Recorder

variable {r : Recorder}

variable (r)

theorem bailOutOnError_eq : r.bailOutOnError = { r with
    pipelineState := if r.pipeline.isSome then .stopped else r.pipelineState
    pipeline := none
    watched := false
    sessionState := if r.sessionState = .active then .stopped else r.sessionState
    start := if r.startRequest then r.start.settle false else r.start
    startRequest := false
    stops := r.stopRequest.elim r.stops fun i => r.stops.modify i (Promise.settle false)
    stopRequest := none } := by
  obtain ⟨sender, pipelineState, sessionState, pipeline, created, pipelineConfigs, startRequest,
    stopRequest, start, stops, watched, listened, streamed⟩ := r
  cases pipeline <;> cases sessionState <;> cases startRequest <;> cases stopRequest <;> rfl

structure Starting : Prop where
  session : r.sessionState = .active
  startRequest : r.startRequest = true
  start : r.start = .pending
  stops : r.stops = []
  stopRequest : r.stopRequest = none
  listened : r.listened = false
  state : r.pipelineState = .init ∨ r.pipelineState = .starting ∧ r.streamed = true

structure Running : Prop where
  session : r.sessionState = .active
  startRequest : r.startRequest = false
  start : r.start = .settled true ∨ r.start = .done
  streamed : r.streamed = true
  pipeline : r.pipeline ≠ none
  stops : r.pipelineState = .playing ∧ r.stops = [] ∧ r.stopRequest = none ∨
    r.pipelineState = .flushing ∧ r.stops = [.pending] ∧ r.stopRequest = some 0

structure Quiet : Prop where
  session : r.sessionState = .stopped
  pipeline : r.pipeline = none
  watched : r.watched = false
  streamed : r.streamed = true

structure Ended : Prop where
  session : r.sessionState ≠ .active
  start : r.start ≠ .pending
  stops : .pending ∉ r.stops
  quiet : r.listened = true ∨ r.start = .settled true → r.Quiet

inductive Sound : Prop where
  | starting (h : r.Starting)
  | running (h : r.Running)
  | ended (h : r.Ended)

def Finished : Prop :=
  (r.start = .done ∨ r.start = .settled true) ∧ ∀ promise ∈ r.stops, promise = .done

variable {r}

structure Advance (r r' : Recorder) (emitted : Bool) : Prop where
  sender : r'.sender = r.sender
  listened : r'.listened = r.listened
  active : r'.sessionState = .active → r.sessionState = .active
  emitted : emitted = true → r.listened = true →
    r.sessionState = .active ∧ r'.sessionState ≠ .active
  start : r.start = .done → r'.start = .done
  stops : ∀ i : ℕ, r.stops[i]? = some .done → r'.stops[i]? = some .done
  finished : r.Finished → r'.Finished
  sound : r'.Sound

structure Follows (r r' : Recorder) : Prop where
  sender : r'.sender = r.sender
  active : r'.sessionState = .active → r.sessionState = .active
  start : r.start = .done → r'.start = .done
  stops : ∀ i : ℕ, r.stops[i]? = some .done → r'.stops[i]? = some .done
  sound : r'.Sound

theorem Advance.follows {r r' : Recorder} {emitted : Bool} (h : Advance r r' emitted) :
    Follows r r' := ⟨h.sender, h.active, h.start, h.stops, h.sound⟩

structure Alike (r u : Recorder) : Prop where
  sender : u.sender = r.sender
  listened : u.listened = r.listened
  startRequest : u.startRequest = r.startRequest
  start : u.start = r.start
  stops : u.stops = r.stops
  stopRequest : u.stopRequest = r.stopRequest
  streamed : r.streamed = true → u.streamed = true
  session : u.sessionState = r.sessionState ∨ u.sessionState = .stopped

def Live (r : Recorder) : Prop :=
  r.sessionState = .active ∨ r.listened = false ∧ r.start ≠ .settled true

theorem Sound.live (h : r.Sound) (hnot : ¬r.Quiet) : r.Live := by
  cases h with
  | starting h => exact .inl h.session
  | running h => exact .inl h.session
  | ended h =>
    refine .inr ⟨?_, fun hstart => hnot (h.quiet (.inr hstart))⟩
    cases hlistened : r.listened with
    | false => rfl
    | true => exact absurd (h.quiet (.inl hlistened)) hnot

theorem Sound.advance (h : r.Sound) : Advance r r false :=
  ⟨rfl, rfl, id, nofun, id, fun _ => id, id, h⟩

theorem Starting.advance {r r' : Recorder} (h : r.Starting) (h' : r'.Starting)
    (hsender : r'.sender = r.sender) : Advance r r' false := by
  refine ⟨hsender, h'.listened.trans h.listened.symm, fun _ => h.session, nofun, ?_, ?_, ?_,
    .starting h'⟩
  · rw [h.start]
    exact nofun
  · rw [h.stops]
    exact fun _ => nofun
  · rintro ⟨hdone, -⟩
    rw [h.start] at hdone
    rcases hdone with hdone | hdone <;> cases hdone

theorem Ended.advance {r r' : Recorder} (h : r.Ended) (hlive : r.Live)
    (hsender : r'.sender = r.sender) (hlistened : r'.listened = r.listened)
    (hstart : r'.start = r.start) (hstops : r'.stops = r.stops)
    (hsession : r'.sessionState ≠ .active) (emitted : Bool) : Advance r r' emitted := by
  have hdeaf : r.listened = false ∧ r.start ≠ .settled true := by
    rcases hlive with hactive | hdeaf
    · exact absurd hactive h.session
    · exact hdeaf
  refine ⟨hsender, hlistened, fun hactive => absurd hactive hsession, fun _ hheard => ?_, ?_, ?_, ?_,
    .ended ⟨hsession, ?_, ?_, ?_⟩⟩
  · rw [hdeaf.1] at hheard
    cases hheard
  · rw [hstart]
    exact id
  · rw [hstops]
    exact fun _ => id
  · rw [Finished, Finished, hstart, hstops]
    exact id
  · rw [hstart]
    exact h.start
  · rw [hstops]
    exact h.stops
  · rw [hlistened, hstart, hdeaf.1]
    rintro (hfalse | hsettled)
    · cases hfalse
    · exact absurd hsettled hdeaf.2

theorem bailOutOnError_session (u : Recorder) : u.bailOutOnError.sessionState ≠ .active := by
  rw [bailOutOnError_eq]
  show (if u.sessionState = .active then .stopped else u.sessionState) ≠ .active
  split
  · exact nofun
  · next hne => exact hne

theorem Starting.advance_bailOutOnError {r u : Recorder} (h : r.Starting) (halike : Alike r u) :
    Advance r u.bailOutOnError true := by
  have hsession := bailOutOnError_session u
  have hstart : u.bailOutOnError.start = .settled false := by
    rw [bailOutOnError_eq]
    show (if u.startRequest then u.start.settle false else u.start) = _
    rw [halike.startRequest, h.startRequest, halike.start, h.start]
    rfl
  have hstops : u.bailOutOnError.stops = [] := by
    rw [bailOutOnError_eq]
    show u.stopRequest.elim u.stops _ = _
    rw [halike.stopRequest, h.stopRequest, halike.stops, h.stops]
    rfl
  have hlistened : u.bailOutOnError.listened = r.listened := by
    rw [bailOutOnError_eq]
    exact halike.listened
  refine ⟨?_, hlistened, fun hactive => absurd hactive hsession, ?_, ?_, ?_, ?_,
    .ended ⟨hsession, ?_, ?_, ?_⟩⟩
  · rw [bailOutOnError_eq]
    exact halike.sender
  · intro _ hheard
    rw [h.listened] at hheard
    cases hheard
  · rw [h.start]
    exact nofun
  · rw [h.stops]
    exact fun _ => nofun
  · rintro ⟨hdone, -⟩
    rw [h.start] at hdone
    rcases hdone with hdone | hdone <;> cases hdone
  · rw [hstart]
    exact nofun
  · rw [hstops]
    exact List.not_mem_nil
  · rw [hlistened, h.listened, hstart]
    rintro (hfalse | hfalse) <;> cases hfalse

theorem Running.advance {r r' : Recorder} (h : r.Running) (hsender : r'.sender = r.sender)
    (hlistened : r'.listened = r.listened) (hstart : r'.start = r.start)
    (hstops : .pending ∉ r'.stops) (hlength : r'.stops.length = r.stops.length) (hquiet : r'.Quiet)
    (emitted : Bool) : Advance r r' emitted := by
  have hsession : r'.sessionState ≠ .active := by
    rw [hquiet.session]
    exact nofun
  refine ⟨hsender, hlistened, fun hactive => absurd hactive hsession,
    fun _ _ => ⟨h.session, hsession⟩, ?_, fun i hdone => ?_, fun hfinished => ?_,
    .ended ⟨hsession, ?_, hstops, fun _ => hquiet⟩⟩
  · rw [hstart]
    exact id
  · rcases h.stops with ⟨-, hnil, -⟩ | ⟨-, hpending, -⟩
    · rw [hnil] at hdone
      cases hdone
    · rw [hpending, List.getElem?_singleton] at hdone
      split at hdone <;> cases hdone
  · rcases h.stops with ⟨-, hnil, -⟩ | ⟨-, hpending, -⟩
    · rw [hnil, List.length_nil, List.length_eq_zero_iff] at hlength
      rw [Finished, hlength, hstart]
      exact ⟨hfinished.1, fun _ => nofun⟩
    · have hdone := hfinished.2 .pending (hpending ▸ .head _)
      cases hdone
  · rw [hstart]
    rcases h.start with heq | heq <;> rw [heq] <;> exact nofun

theorem Running.quiet_bailOutOnError {r u : Recorder} (h : r.Running) (halike : Alike r u) :
    u.bailOutOnError.Quiet := by
  rw [bailOutOnError_eq]
  refine ⟨?_, rfl, rfl, halike.streamed h.streamed⟩
  show (if u.sessionState = .active then .stopped else u.sessionState) = _
  rcases halike.session with heq | heq
  · rw [if_pos (heq.trans h.session)]
  · rw [heq]
    rfl

theorem advance_bailOutOnError {r u : Recorder} (h : r.Sound) (hlive : r.Live) (halike : Alike r u) :
    Advance r u.bailOutOnError true := by
  have hsender : u.bailOutOnError.sender = r.sender := by
    rw [bailOutOnError_eq]
    exact halike.sender
  have hlistened : u.bailOutOnError.listened = r.listened := by
    rw [bailOutOnError_eq]
    exact halike.listened
  cases h with
  | starting h => exact h.advance_bailOutOnError halike
  | running h =>
    have hstart : u.bailOutOnError.start = r.start := by
      rw [bailOutOnError_eq]
      show (if u.startRequest then _ else u.start) = r.start
      rw [halike.startRequest, h.startRequest]
      exact halike.start
    have hstops : u.bailOutOnError.stops =
        r.stopRequest.elim r.stops fun i => r.stops.modify i (Promise.settle false) := by
      rw [bailOutOnError_eq, ← halike.stopRequest, ← halike.stops]
    refine h.advance hsender hlistened hstart ?_ ?_ (h.quiet_bailOutOnError halike) true
    · rw [hstops]
      rcases h.stops with ⟨-, heq, hrequest⟩ | ⟨-, heq, hrequest⟩
      · rw [heq, hrequest]
        exact List.not_mem_nil
      · rw [heq, hrequest]
        decide
    · rw [hstops]
      cases r.stopRequest with
      | none => rfl
      | some i => exact List.length_modify _ _ _
  | ended h =>
    have hstart : u.bailOutOnError.start = r.start := by
      rw [bailOutOnError_eq]
      show (if u.startRequest then u.start.settle false else u.start) = r.start
      rw [halike.start, Promise.settle_of_ne h.start, ite_self]
    have hstops : u.bailOutOnError.stops = r.stops := by
      rw [bailOutOnError_eq]
      show u.stopRequest.elim u.stops _ = r.stops
      rw [halike.stops]
      cases u.stopRequest with
      | none => rfl
      | some i => exact modify_settle_of_not_mem h.stops i false
    exact h.advance hlive hsender hlistened hstart hstops (bailOutOnError_session u) true

/-- The candidates all fail, or one of them becomes the pipeline. Induction on the list. -/
theorem tryNextPipeline_cases {r u : Recorder} (halike : Alike r u) (configs : List Candidate) :
    (∃ v, Alike r v ∧ tryNextPipeline configs u = (v.bailOutOnError, true)) ∨
    ∃ p created configs', tryNextPipeline configs u = ({ u with
      pipeline := some p
      created := created
      pipelineConfigs := configs' }, false) := by
  induction configs generalizing u with
  | nil =>
    refine .inl ⟨{ u with pipelineConfigs := [], pipelineState := .error }, ?_, rfl⟩
    exact ⟨halike.sender, halike.listened, halike.startRequest, halike.start, halike.stops,
      halike.stopRequest, halike.streamed, halike.session⟩
  | cons config configs ih =>
    cases config with
    | blocklisted => exact ih halike
    | broken =>
      exact ih (u := { u with pipeline := none }) ⟨halike.sender, halike.listened,
        halike.startRequest, halike.start, halike.stops, halike.stopRequest, halike.streamed,
        halike.session⟩
    | refused =>
      exact ih (u := { u with pipeline := some u.created, created := u.created + 1 })
        ⟨halike.sender, halike.listened, halike.startRequest, halike.start, halike.stops,
          halike.stopRequest, halike.streamed, halike.session⟩
    | starts => exact .inr ⟨u.created, u.created + 1, configs, rfl⟩

theorem advance_tryNextPipeline {r u : Recorder} (h : r.Sound) (hlive : r.Live)
    (halike : Alike r u) (hnot : ¬r.Running) (hsession : u.sessionState = r.sessionState)
    (hstarting : r.Starting → u.pipelineState = .starting ∧ u.streamed = true)
    (configs : List Candidate) :
    Advance r (tryNextPipeline configs u).1 (tryNextPipeline configs u).2 := by
  rcases tryNextPipeline_cases halike configs with ⟨v, halike', heq⟩ | ⟨p, created, configs', heq⟩
  · rw [heq]
    exact advance_bailOutOnError h hlive halike'
  · rw [heq]
    cases h with
    | starting h =>
      have hstate := hstarting h
      refine h.advance ?_ halike.sender
      exact ⟨hsession.trans h.session, halike.startRequest.trans h.startRequest,
        halike.start.trans h.start, halike.stops.trans h.stops,
        halike.stopRequest.trans h.stopRequest, halike.listened.trans h.listened, .inr hstate⟩
    | running h => exact absurd h hnot
    | ended h =>
      apply h.advance hlive
      · exact halike.sender
      · exact halike.listened
      · exact halike.start
      · exact halike.stops
      · show u.sessionState ≠ .active
        rw [hsession]
        exact h.session

theorem advance_streamAdded (h : r.Sound) (hstreamed : r.streamed = false)
    (configs : List Candidate) : Advance r (r.streamAdded configs).1 (r.streamAdded configs).2 := by
  have hlive : r.Live := h.live fun hquiet => by
    rw [hquiet.streamed] at hstreamed
    cases hstreamed
  apply advance_tryNextPipeline h hlive
  · exact ⟨rfl, rfl, rfl, rfl, rfl, rfl, fun _ => rfl, .inl rfl⟩
  · intro hrunning
    rw [hrunning.streamed] at hstreamed
    cases hstreamed
  · rfl
  · exact fun _ => ⟨rfl, rfl⟩

theorem advance_senderVanished (h : r.Sound) (hwatched : r.watched = true) :
    Advance r r.senderVanished.1 r.senderVanished.2 := by
  have hlive : r.Live := h.live fun hquiet => by
    rw [hquiet.watched] at hwatched
    cases hwatched
  exact advance_bailOutOnError h hlive ⟨rfl, rfl, rfl, rfl, rfl, rfl, id, .inl rfl⟩

theorem advance_onSessionClosed (h : r.Sound) :
    Advance r r.onSessionClosed.1 r.onSessionClosed.2 := by
  unfold onSessionClosed
  split
  · exact h.advance
  · next hne =>
    have hlive : r.Live := h.live fun hquiet => hne hquiet.session
    exact advance_bailOutOnError h hlive ⟨rfl, rfl, rfl, rfl, rfl, rfl, id, .inr rfl⟩

theorem flushed_eq (r : Recorder) :
    (r.teardownPipeline.unwatchSender.stopSession).settleStop true = { r with
      pipelineState := if r.pipeline.isSome then .stopped else r.pipelineState
      pipeline := none
      watched := false
      sessionState := if r.sessionState = .active then .stopped else r.sessionState
      stops := r.stopRequest.elim r.stops fun i => r.stops.modify i (Promise.settle true)
      stopRequest := none } := by
  obtain ⟨sender, pipelineState, sessionState, pipeline, created, pipelineConfigs, startRequest,
    stopRequest, start, stops, watched, listened, streamed⟩ := r
  cases pipeline <;> cases sessionState <;> cases stopRequest <;> rfl

theorem advance_flushed (h : r.Sound) (hlive : r.Live) (hstate : r.pipelineState = .flushing) :
    Advance r ((r.teardownPipeline.unwatchSender.stopSession).settleStop true) false := by
  cases h with
  | starting h =>
    rcases h.state with hinit | ⟨hstarting, -⟩
    · cases hstate.symm.trans hinit
    · cases hstate.symm.trans hstarting
  | running h =>
    rcases h.stops with ⟨hplaying, -⟩ | ⟨-, hstops, hrequest⟩
    · cases hstate.symm.trans hplaying
    · rw [flushed_eq, hrequest, hstops, if_pos h.session]
      apply h.advance
      · rfl
      · rfl
      · rfl
      · show .pending ∉ [Promise.settled true]
        decide
      · rw [hstops]
        rfl
      · exact ⟨rfl, rfl, rfl, h.streamed⟩
  | ended h =>
    rw [flushed_eq, if_neg h.session]
    apply h.advance hlive
    · rfl
    · rfl
    · rfl
    · show r.stopRequest.elim r.stops _ = r.stops
      cases r.stopRequest with
      | none => rfl
      | some i => exact modify_settle_of_not_mem h.stops i true
    · exact h.session

theorem advance_playing {p : ℕ} (h : r.Sound) (hstate : r.pipelineState = .starting)
    (hpipeline : r.pipeline = some p) :
    Advance r ({ r with pipelineState := .playing }.settleStart true) false := by
  have hlive : r.Live := h.live fun hquiet => by cases hpipeline.symm.trans hquiet.pipeline
  have hsettle : { r with pipelineState := .playing }.settleStart true = { r with
      pipelineState := .playing
      start := if r.startRequest then r.start.settle true else r.start
      startRequest := false } := by
    unfold settleStart
    cases hrequest : r.startRequest <;> rfl
  rw [hsettle]
  cases h with
  | starting h =>
    have hstreamed : r.streamed = true := by
      rcases h.state with hinit | ⟨-, hstreamed⟩
      · cases hstate.symm.trans hinit
      · exact hstreamed
    rw [if_pos h.startRequest, h.start]
    refine ⟨rfl, rfl, id, nofun, ?_, fun _ => id, ?_, .running ?_⟩
    · rw [h.start]
      exact nofun
    · rintro ⟨hdone, -⟩
      rw [h.start] at hdone
      rcases hdone with hdone | hdone <;> cases hdone
    · exact ⟨h.session, rfl, .inl rfl, hstreamed, by rw [hpipeline]; exact nofun,
        .inl ⟨rfl, h.stops, h.stopRequest⟩⟩
  | running h =>
    rcases h.stops with ⟨hplaying, -⟩ | ⟨hflushing, -⟩
    · cases hstate.symm.trans hplaying
    · cases hstate.symm.trans hflushing
  | ended h =>
    apply h.advance hlive
    · rfl
    · rfl
    · show (if r.startRequest then r.start.settle true else r.start) = r.start
      rw [Promise.settle_of_ne h.start, ite_self]
    · rfl
    · exact h.session

def Acts (r : Recorder) (message : Message) : Prop :=
  message ≠ .playing ∧
    (r.pipelineState = .starting ∨ r.pipelineState = .playing ∨ r.pipelineState = .flushing)
deriving Decidable

def Current (r : Recorder) (p : ℕ) (message : Message) : Prop :=
  r.Acts message → r.pipeline = some p
deriving Decidable

theorem onBusMessage_of_ne {p : ℕ} {message : Message}
    (hcurrent : r.Current p message) (hne : r.pipeline ≠ some p) :
    r.onBusMessage p message = (r, false) := by
  have hnot : ¬r.Acts message := fun hacts => hne (hcurrent hacts)
  cases message with
  | playing => exact if_neg fun hstate => hne hstate.2
  | eos | error =>
    unfold onBusMessage
    cases hstate : r.pipelineState with
    | init => rfl
    | stopped => rfl
    | error => rfl
    | starting => exact absurd ⟨nofun, .inl hstate⟩ hnot
    | playing => exact absurd ⟨nofun, .inr (.inl hstate)⟩ hnot
    | flushing => exact absurd ⟨nofun, .inr (.inr hstate)⟩ hnot

theorem advance_onBusMessage {p : ℕ} {message : Message} (h : r.Sound)
    (hcurrent : r.Current p message) :
    Advance r (r.onBusMessage p message).1 (r.onBusMessage p message).2 := by
  have hlive : r.pipeline = some p → r.Live := fun heq =>
    h.live fun hquiet => by cases heq.symm.trans hquiet.pipeline
  -- the next candidate takes the place of a pipeline that was starting
  have hnext : r.pipelineState = .starting → r.pipeline = some p →
      Advance r (tryNextPipeline r.pipelineConfigs r).1 (tryNextPipeline r.pipelineConfigs r).2 := by
    intro hstate heq
    apply advance_tryNextPipeline h (hlive heq)
    · exact ⟨rfl, rfl, rfl, rfl, rfl, rfl, id, .inl rfl⟩
    · intro hrunning
      rcases hrunning.stops with ⟨hplaying, -⟩ | ⟨hflushing, -⟩
      · cases hstate.symm.trans hplaying
      · cases hstate.symm.trans hflushing
    · rfl
    · intro hstarting
      rcases hstarting.state with hinit | hstarted
      · cases hstate.symm.trans hinit
      · exact hstarted
  have hfatal : r.pipeline = some p → Advance r r.handleFatalPipelineError true := fun heq =>
    advance_bailOutOnError h (hlive heq) ⟨rfl, rfl, rfl, rfl, rfl, rfl, id, .inl rfl⟩
  cases message with
  | playing =>
    by_cases hstate : r.pipelineState = .starting ∧ r.pipeline = some p
    · have heq : r.onBusMessage p .playing = _ := if_pos hstate
      rw [heq]
      exact advance_playing h hstate.1 hstate.2
    · have heq : r.onBusMessage p .playing = _ := if_neg hstate
      rw [heq]
      exact h.advance
  | eos =>
    unfold onBusMessage
    cases hstate : r.pipelineState with
    | init => exact h.advance
    | stopped => exact h.advance
    | error => exact h.advance
    | starting => exact hnext hstate (hcurrent ⟨nofun, .inl hstate⟩)
    | playing => exact hfatal (hcurrent ⟨nofun, .inr (.inl hstate)⟩)
    | flushing => exact advance_flushed h (hlive (hcurrent ⟨nofun, .inr (.inr hstate)⟩)) hstate
  | error =>
    unfold onBusMessage
    cases hstate : r.pipelineState with
    | init => exact h.advance
    | stopped => exact h.advance
    | error => exact h.advance
    | starting => exact hnext hstate (hcurrent ⟨nofun, .inl hstate⟩)
    | playing => exact hfatal (hcurrent ⟨nofun, .inr (.inl hstate)⟩)
    | flushing => exact hfatal (hcurrent ⟨nofun, .inr (.inr hstate)⟩)

def Stoppable (r : Recorder) : Prop :=
  if r.sessionState = .active then r.startRequest = false ∧ .pending ∉ r.stops
  else r.startRequest = true ∨ r.pipeline = none
deriving Decidable

theorem stopRecording_eq (r : Recorder) : r.stopRecording = { r with
    stopRequest := if r.startRequest then r.stopRequest else some r.stops.length
    pipelineState := if r.startRequest then r.pipelineState else .flushing
    stops := r.stops ++
      [if r.startRequest = false ∧ r.pipeline.isSome then .pending else .settled false] } := by
  unfold stopRecording
  cases hrequest : r.startRequest with
  | true => rfl
  | false => cases hpipeline : r.pipeline <;> rfl

theorem stopRecording_sound (h : r.Sound) (hstoppable : r.Stoppable) : r.stopRecording.Sound := by
  rw [stopRecording_eq]
  unfold Stoppable at hstoppable
  cases h with
  | starting h =>
    rw [if_pos h.session, h.startRequest] at hstoppable
    cases hstoppable.1
  | running h =>
    rw [if_pos h.session] at hstoppable
    have hstops : r.stops = [] := by
      rcases h.stops with ⟨-, hnil, -⟩ | ⟨-, hpending, -⟩
      · exact hnil
      · exact absurd (hpending ▸ .head _) hstoppable.2
    have hboth : r.startRequest = false ∧ r.pipeline.isSome :=
      ⟨h.startRequest, Option.isSome_iff_ne_none.mpr h.pipeline⟩
    rw [if_pos hboth, hstops, if_neg (by rw [h.startRequest]; exact nofun),
      if_neg (by rw [h.startRequest]; exact nofun)]
    exact .running ⟨h.session, h.startRequest, h.start, h.streamed, h.pipeline, .inr ⟨rfl, rfl, rfl⟩⟩
  | ended h =>
    rw [if_neg h.session] at hstoppable
    have hnot : ¬(r.startRequest = false ∧ r.pipeline.isSome) := by
      rintro ⟨hrequest, hsome⟩
      rcases hstoppable with htrue | hnone
      · cases hrequest.symm.trans htrue
      · rw [hnone] at hsome
        cases hsome
    rw [if_neg hnot]
    refine .ended ⟨h.session, h.start, ?_, fun hheard => ?_⟩
    · rw [List.mem_append, List.mem_singleton]
      rintro (hmem | heq)
      · exact h.stops hmem
      · cases heq
    · have hquiet := h.quiet hheard
      exact ⟨hquiet.session, hquiet.pipeline, hquiet.watched, hquiet.streamed⟩

theorem follows_stopRecording (h : r.Sound) (hstoppable : r.Stoppable) :
    Follows r r.stopRecording := by
  have hsound := stopRecording_sound h hstoppable
  rw [stopRecording_eq] at hsound ⊢
  refine ⟨rfl, id, id, fun i hdone => ?_, hsound⟩
  obtain ⟨hlt, -⟩ := List.getElem?_eq_some_iff.mp hdone
  exact (List.getElem?_append_left hlt).trans hdone

theorem follows_start {resolved : Bool} (h : r.Sound) (hstart : r.start = .settled resolved) :
    Follows r { r with start := .done, listened := resolved || r.listened } := by
  refine ⟨rfl, id, fun _ => rfl, fun _ => id, ?_⟩
  cases h with
  | starting h => cases hstart.symm.trans h.start
  | running h => exact .running ⟨h.session, h.startRequest, .inr rfl, h.streamed, h.pipeline, h.stops⟩
  | ended h =>
    refine .ended ⟨h.session, nofun, h.stops, fun hheard => ?_⟩
    have hquiet : r.Quiet := by
      apply h.quiet
      cases resolved with
      | true => exact .inr hstart
      | false =>
        rcases hheard with hlistened | hfalse
        · exact .inl hlistened
        · cases hfalse
    exact ⟨hquiet.session, hquiet.pipeline, hquiet.watched, hquiet.streamed⟩

theorem follows_stop {i : ℕ} {resolved : Bool} (h : r.Sound)
    (hstop : r.stops[i]? = some (.settled resolved)) :
    r.sessionState ≠ .active ∧ Follows r { r with stops := r.stops.set i .done } := by
  cases h with
  | starting h =>
    rw [h.stops] at hstop
    cases hstop
  | running h =>
    rcases h.stops with ⟨-, hnil, -⟩ | ⟨-, hpending, -⟩
    · rw [hnil] at hstop
      cases hstop
    · rw [hpending, List.getElem?_singleton] at hstop
      split at hstop <;> cases hstop
  | ended h =>
    refine ⟨h.session, rfl, id, id, fun j hdone => ?_, .ended ⟨h.session, h.start, ?_, fun hheard => ?_⟩⟩
    · show (r.stops.set i .done)[j]? = _
      rw [List.getElem?_set]
      split
      · next heq =>
        subst heq
        cases hstop.symm.trans hdone
      · exact hdone
    · intro hmem
      rcases List.mem_or_eq_of_mem_set hmem with hmem | heq
      · exact h.stops hmem
      · cases heq
    · have hquiet := h.quiet hheard
      exact ⟨hquiet.session, hquiet.pipeline, hquiet.watched, hquiet.streamed⟩

end Recorder

theorem Recorder.new_sound (sender : ℕ) (started : Bool) : (Recorder.new sender started).Sound := by
  cases started with
  | true => exact .starting ⟨rfl, rfl, rfl, rfl, rfl, rfl, .inl rfl⟩
  | false =>
    refine .ended ⟨nofun, nofun, List.not_mem_nil, ?_⟩
    rintro (hfalse | hfalse) <;> cases hfalse

end Screencast
