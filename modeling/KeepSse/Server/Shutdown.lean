import KeepSse.Server.Sessions
import KeepSse.Sse.Progress

/-!
# Shutdown

Told to stop, the server accepts nothing more and returns when its connections have come to an end,
or when the time for that is over.

## What it means for the clients

`graceful`: if it was not the time, then every client who stayed has all of its stream, unless the
task that wrote it has panicked. It is not a matter of the connections alone, for the tasks that
write the streams are not waited for. What carries it is that a connection is kept as long as its
session has something to deliver (`Attended`): a session that has ended stays so (`ended_of_step`),
and a connection leaves a session only when it has ended or is hung up (`Control.keeps_streaming`).
With that, `delivered` reads the stream off the course of the session. What the run has behind it
when it is past the loop is kept in an invariant of its own (`Leaving`).

## How long it takes

`returns_in_time`: the loop may be asleep when it is told to stop, because accepting has just
failed, and it does not listen then; but that takes a tenth of a second and no longer, whatever the
connections do. Two things are proved of a run that is prompt. Its clock keeps within bounds that
only the phase of the loop decides (`Phase.InTime`, `inTime_step`); and it never gets stuck: there
is a way out of at most five steps from every state (`canReturn`).

A prompt run is one in which the clock waits for the loop (`Phase.MayWait`), and in which a loop
that has been told to stop does so before it sees to another accept that has failed.

## What the loop does not promise

The last condition is not idle. `select!` takes its branches in no fixed order, so the loop may see
to a failing accept although it has been told to stop, and sleep, and do so again (`put_off`). No
other delay is needed for that: in the runs of `put_off` the clock goes on only where the loop has
to wait, and at each failing accept it could have stopped instead (`Contended`).
-/

namespace KeepSse.Server

open Text Http

/-! ### Sessions are attended to -/

section

variable {g : Sse.Gateway} {st st' : Sse.State} {b : Sse.Action}

/-- The state of a session that has ended. -/
theorem Session.ended_iff {ses : Session} : ses.ended = true ↔
    (ses.state.task = .finished ∨ ses.state.task = .panicked) ∧ ses.state.queue = [] := by
  unfold Session.ended
  split
  · next h => simp [h]
  · next h => simp [h]
  · next hfinished hpanicked => simpa using fun h ↦ (h.elim hfinished hpanicked).elim

/-- A session that has ended stays so. -/
theorem ended_of_step (h : Sse.Step g st b st') (htask : st.task = .finished ∨ st.task = .panicked)
    (hqueue : st.queue = []) :
    (st'.task = .finished ∨ st'.task = .panicked) ∧ st'.queue = [] := by
  cases h with
  | clock hle => exact ⟨htask, hqueue⟩
  | recv hqueue' hconn =>
    rw [hqueue] at hqueue'
    cases hqueue'
  | disconnect hconn =>
    refine ⟨?_, rfl⟩
    rcases htask with htask | htask
    · exact .inl (by rw [htask]; rfl)
    · exact .inr (by rw [htask]; rfl)
  | elapse htask' | heartbeat htask' | start htask' | answer htask' | bridge htask' | item htask'
  | collected htask' | sent htask' | refused htask' | rearm htask' | overflow htask' =>
    rcases htask with htask | htask
    · cases htask'.symm.trans htask
    · cases htask'.symm.trans htask

/-- A client who is there has been there before. -/
theorem connected_of_connected (h : Sse.Step g st b st') (hconn : st'.connected = true) :
    st.connected = true := by
  cases h with
  | disconnect hconn' => exact hconn'
  | _ => exact hconn

theorem not_connected_of_disconnect (h : Sse.Step g st .disconnect st') :
    st'.connected = false := by
  cases h
  rfl

end

/-- A connection is kept for every session that has not ended and whose client is there. -/
def Attended (s : State) : Prop :=
  ∀ (j : ℕ) (ses : Session), s.sessions[j]? = some ses → ses.state.connected = true →
    ses.ended = true ∨ ∃ i : ℕ, s.conns[i]? = some (.streaming j)

section

variable {srv : Setup} {s s' s₁ : State} {a : Action} {i j : ℕ}

/-- A connection that streams goes on with it, unless its response is complete or it is hung up. -/
theorem Control.keeps_streaming (h : Control srv s a s₁) (hi : s.conns[i]? = some (.streaming j)) :
    s₁.conns[i]? = some (.streaming j) ∨ a = .hangUp i ∨
      ∃ ses, s.sessions[j]? = some ses ∧ ses.ended = true := by
  -- another connection is set
  have hset {k : ℕ} {c c' : Conn} (hk : s.conns[k]? = some c) (hc : c ≠ .streaming j) :
      (s.conns.set k c')[i]? = some (.streaming j) := by
    have hki : k ≠ i := by
      rintro rfl
      exact hc (Option.some.inj (hk.symm.trans hi))
    rw [List.getElem?_set_ne hki, hi]
  cases h with
  | accept hphase =>
    left
    rw [List.getElem?_append_left (List.getElem?_eq_some_iff.1 hi).1, hi]
  | receive hconn => exact .inl (hset hconn Conn.noConfusion)
  | dispatch hconn => exact .inl (hset hconn Conn.noConfusion)
  | answered hconn => exact .inl (hset hconn Conn.noConfusion)
  | shed hphase hconn => exact .inl (hset hconn Conn.noConfusion)
  | @streamed k j' ses hconn hses hended =>
    by_cases hj : j' = j
    · subst hj
      exact .inr (.inr ⟨ses, hses, hended⟩)
    · exact .inl (hset hconn fun h ↦ hj (Conn.streaming.inj h))
  | @hangUp k c hconn hopen =>
    by_cases hki : k = i
    · exact .inr (.inl (congrArg Action.hangUp hki))
    · exact .inl (by rw [List.getElem?_set_ne hki, hi])
  | _ => exact .inl hi

theorem Attended.step (hs : Attended s) (h : step srv s a = some s') : Attended s' := by
  intro j ses' hses' hconn'
  rcases session_cases h hses' with ⟨ses, hses, -, hshare⟩ | hnew
  · -- a session that has ended stays so
    have hended (hended : ses.ended = true) : ses'.ended = true := by
      rcases hshare with ⟨-, rfl⟩ | ⟨b, -, hstep⟩
      · exact hended
      · obtain ⟨htask, hqueue⟩ := Session.ended_iff.1 hended
        exact Session.ended_iff.2 (ended_of_step hstep htask hqueue)
    have hconn : ses.state.connected = true := by
      rcases hshare with ⟨-, rfl⟩ | ⟨b, -, hstep⟩
      · exact hconn'
      · exact connected_of_connected hstep hconn'
    rcases hs j ses hses hconn with hdone | ⟨i, hi⟩
    · exact .inl (hended hdone)
    · obtain ⟨-, s₁, sessions, hcontrol, -, rfl⟩ := step_cases h
      rcases hcontrol.keeps_streaming hi with hi | rfl | ⟨ses₁, hses₁, hdone⟩
      · exact .inr ⟨i, hi⟩
      · -- a client who hangs up is not there any more
        have hgone : (effect srv s (.hangUp i)).share j = some .disconnect := by
          simp [effect, hi, Transition.PoolAction.share]
        rcases hshare with ⟨hnone, -⟩ | ⟨b, hb, hstep⟩
        · cases hnone.symm.trans hgone
        · obtain rfl := Option.some.inj (hb.symm.trans hgone)
          cases hconn'.symm.trans (not_connected_of_disconnect hstep)
      · obtain rfl := Option.some.inj (hses.symm.trans hses₁)
        exact .inl (hended hdone)
  · obtain ⟨i, req, rfl, hserve⟩ := effect_new hnew.1
    obtain ⟨-, s₁, sessions, hcontrol, -, rfl⟩ := step_cases h
    cases hcontrol with
    | dispatch hconn =>
      refine .inr ⟨i, ?_⟩
      simp only [hserve, Served.conn, hnew.2]
      exact List.getElem?_set_self (List.getElem?_eq_some_iff.1 hconn).1

end

/-! ### The way out -/

/-- What a run that is past the loop has behind it: it was told to stop, and stopped accepting. -/
def Stopped (srv : Setup) (now : Instant) (as : List Action) (s : State)
    (P : State → Prop) : Prop :=
  ∃ pre post s₁, as = pre ++ .stop :: post ∧
    Transition.run (step srv) (.init now) pre = some s₁ ∧ .shutdown ∈ pre ∧
    s.conns.length = s₁.conns.length ∧ P s₁

/-- How far the run is on its way out. -/
def Leaving (srv : Setup) (now : Instant) (as : List Action) (s : State) : Prop :=
  match s.phase with
  | .accepting => True
  | .backoff _ => True
  | .draining deadline => Stopped srv now as s fun s₁ ↦
      deadline = srv.crates.sleep s₁.now srv.cfg.shutdownTimeout
  | .returned false => Stopped srv now as s fun _ ↦ ∀ c ∈ s.conns, c = .closed
  | .returned true => Stopped srv now as s fun s₁ ↦
      srv.crates.sleep s₁.now srv.cfg.shutdownTimeout ≤ s.now

section

variable {srv : Setup} {now : Instant} {s s' : State} {a : Action} {as : List Action}

theorem Control.conns_length {s₁ : State} (h : Control srv s a s₁)
    (hphase : s.phase ≠ .accepting) : s₁.conns.length = s.conns.length := by
  cases h with
  | accept hphase' => exact absurd hphase' hphase
  | receive | dispatch | answered | streamed | hangUp | shed => exact List.length_set
  | _ => rfl

/-- The server has been told to stop when it knows of it. -/
theorem shutdown_mem (hrun : Transition.run (step srv) (.init now) as = some s)
    (hsignal : s.signalled = true) : .shutdown ∈ as := by
  revert hsignal
  refine Transition.run_induction (P := fun as s ↦ s.signalled = true → .shutdown ∈ as)
    (fun h ↦ by cases h) ?_ hrun
  intro as a s s' _ ih hstep hsignal
  obtain ⟨-, s₁, sessions, hcontrol, -, rfl⟩ := step_cases hstep
  cases hcontrol with
  | shutdown h => exact List.mem_append_right _ (List.mem_singleton_self _)
  | _ => exact List.mem_append_left _ (ih hsignal)

end

section

variable {srv : Setup} {now : Instant} {s s' : State} {a : Action} {as : List Action}

/-- More may happen as long as nothing is accepted. -/
theorem Stopped.snoc {P Q : State → Prop} (h : Stopped srv now as s P)
    (hlength : s'.conns.length = s.conns.length) (hPQ : ∀ s₁, P s₁ → Q s₁) (a : Action) :
    Stopped srv now (as ++ [a]) s' Q := by
  obtain ⟨pre, post, s₁, rfl, hpre, hsignal, hconns, hP⟩ := h
  exact ⟨pre, post ++ [a], s₁, by simp, hpre, hsignal, hlength.trans hconns, hPQ s₁ hP⟩

/-- **One step further on the way out.** -/
theorem Leaving.step (hs : Leaving srv now as s)
    (hrun : Transition.run (step srv) (.init now) as = some s) (h : step srv s a = some s') :
    Leaving srv now (as ++ [a]) s' := by
  obtain ⟨hover, s₁, sessions, hcontrol, -, rfl⟩ := step_cases h
  -- most steps keep the phase
  have hkeep (hphase : s₁.phase = s.phase) :
      Leaving srv now (as ++ [a]) { s₁ with sessions := sessions } := by
    unfold Leaving at hs ⊢
    simp only [hphase]
    cases hp : s.phase with
    | accepting => trivial
    | backoff deadline => trivial
    | draining deadline =>
      rw [hp] at hs
      have hlength := hcontrol.conns_length (by rw [hp]; exact Phase.noConfusion)
      exact hs.snoc hlength (fun _ ↦ id) a
    | returned forced =>
      rw [hp] at hover
      cases hover
  cases hcontrol with
  | stop hphase hsignal =>
    exact ⟨as, [], s, rfl, hrun, shutdown_mem hrun hsignal, rfl, rfl⟩
  | acceptFailed hphase => trivial
  | resume hphase hdue => trivial
  | drained hphase hclosed =>
    simp only [Leaving, hphase] at hs
    exact hs.snoc rfl (fun _ _ ↦ hclosed) _
  | @expired deadline hphase hdue =>
    simp only [Leaving, hphase] at hs
    exact hs.snoc rfl (fun s₁ h ↦ h ▸ hdue) _
  | _ => exact hkeep rfl

variable {forced : Bool}

theorem leaving_run (hrun : Transition.run (step srv) (.init now) as = some s) :
    Leaving srv now as s := by
  refine Transition.run_induction (P := fun as s ↦ Leaving srv now as s) ?_
    (fun _ _ _ _ hrun ih hstep ↦ ih.step hrun hstep) hrun
  trivial

theorem attended_run (hrun : Transition.run (step srv) (.init now) as = some s) : Attended s :=
  Transition.run_induction (P := fun _ s ↦ Attended s) (fun j ses h ↦ by simp [State.init] at h)
    (fun _ _ _ _ _ ih hstep ↦ ih.step hstep) hrun

/-- Once all connections are closed, a client who stayed has all of its stream. -/
theorem delivered (hrun : Transition.run (step srv) (.init now) as = some s)
    (hclosed : ∀ c ∈ s.conns, c = .closed) {j : ℕ} {ses : Session}
    (hses : s.sessions[j]? = some ses) (hconn : ses.state.connected = true) :
    ses.state.task = .panicked ∨
      (Sse.Course.of (srv.gateway ses.kind) (own j as)).Final ∧
      (Sse.Course.of (srv.gateway ses.kind) (own j as)).Word (srv.gateway ses.kind)
        ses.state.received := by
  rcases attended_run hrun j ses hses hconn with hended | ⟨i, hi⟩
  · obtain ⟨htask, hqueue⟩ := Session.ended_iff.1 hended
    obtain ⟨h, hshare, hown, -⟩ := exists_history hrun hses
    have hrefines := Sse.refines_run h.begun hshare
    rw [← course_filter, hown] at hrefines
    rcases htask with htask | htask
    · have hfinal := hrefines.fits
      have hword := hrefines.word hconn
      rw [htask] at hfinal
      rw [htask, hqueue] at hword
      exact .inr ⟨hfinal hconn, by simpa [Sse.Task.owed] using hword⟩
    · exact .inl htask
  · exact absurd (hclosed _ (List.mem_of_getElem? hi)) Conn.noConfusion

/-- **The shutdown is graceful.** When `run` returns, it has been told to, and it has accepted
nothing since it stopped; if it returns on the timeout, the time is over. And if not, then all
connections are closed, and every client who stayed has received all of its stream: the course of
its upstream is at its end, and what the client has is a word of that course, whole. -/
theorem graceful (hrun : Transition.run (step srv) (.init now) as = some s)
    (hphase : s.phase = .returned forced) :
    (∃ pre post s₁, as = pre ++ .stop :: post ∧
      Transition.run (step srv) (.init now) pre = some s₁ ∧ .shutdown ∈ pre ∧
      s.conns.length = s₁.conns.length ∧
      (forced = true → srv.crates.sleep s₁.now srv.cfg.shutdownTimeout ≤ s.now)) ∧
    (forced = false → (∀ c ∈ s.conns, c = .closed) ∧
      ∀ (j : ℕ) (ses : Session), s.sessions[j]? = some ses → ses.state.connected = true →
        ses.state.task = .panicked ∨
          (Sse.Course.of (srv.gateway ses.kind) (own j as)).Final ∧
          (Sse.Course.of (srv.gateway ses.kind) (own j as)).Word (srv.gateway ses.kind)
            ses.state.received) := by
  have hleaving := leaving_run hrun
  cases forced with
  | true =>
    simp only [Leaving, hphase] at hleaving
    obtain ⟨pre, post, s₁, has, hpre, hsignal, hconns, hdue⟩ := hleaving
    exact ⟨⟨pre, post, s₁, has, hpre, hsignal, hconns, fun _ ↦ hdue⟩, Bool.noConfusion⟩
  | false =>
    simp only [Leaving, hphase] at hleaving
    obtain ⟨pre, post, s₁, has, hpre, hsignal, hconns, hclosed⟩ := hleaving
    exact ⟨⟨pre, post, s₁, has, hpre, hsignal, hconns, Bool.noConfusion⟩, fun _ ↦
      ⟨hclosed, fun j ses hses hconn ↦ delivered hrun hclosed hses hconn⟩⟩

end

/-- A client is sent an event, the server is told to stop, and the stream ends. -/
def lastClient : List Action := [
  .accept, .receive 0, .dispatch 0 streamRequest,
  .session 0 (.upstream (.ok Sse.eventStream)), .session 0 .start, .shutdown, .stop,
  .session 0 (.item (.chunk (utf8 "data: a\n\n".toList))), .session 0 .sent, .session 0 .rearm,
  .session 0 (.item .done), .session 0 .recv, .answered 0, .shed 0, .drained]

theorem lastClient_spec :
    ∃ s ses, Transition.run (step .reference) (.init (Sse.second 0)) lastClient = some s ∧
      s.phase = .returned false ∧ s.sessions[0]? = some ses ∧ ses.state.connected = true ∧
      ses.state.task ≠ .panicked :=
  ⟨_, _, rfl, rfl, rfl, rfl, by decide⟩

/-- The event that came after the server was told to stop has been received. -/
theorem graceful_lastClient :
    ∃ s ses, Transition.run (step .reference) (.init (Sse.second 0)) lastClient = some s ∧
      s.sessions[0]? = some ses ∧
      (Sse.Course.of (Setup.reference.gateway ses.kind) (own 0 lastClient)).Word
        (Setup.reference.gateway ses.kind) ses.state.received := by
  obtain ⟨s, ses, hrun, hphase, hses, hconn, htask⟩ := lastClient_spec
  have hgraceful := ((graceful hrun hphase).2 rfl).2 0 ses hses hconn
  exact ⟨s, ses, hrun, hses, (hgraceful.resolve_left htask).2⟩


/-! ### In time -/

/-- The clock may go on to a moment: as far as the next deadline of the loop, and not at all where
the loop can see that it is told to stop. -/
def Phase.MayWait (s : State) (t : Instant) : Phase → Prop
  | .accepting => s.signalled = true → t ≤ s.now
  | .backoff deadline => t ≤ deadline
  | .draining deadline => t ≤ deadline
  | .returned _ => True

instance (s : State) (t : Instant) : ∀ phase : Phase, Decidable (phase.MayWait s t)
  | .accepting => inferInstanceAs (Decidable (_ → _))
  | .backoff _ => inferInstanceAs (Decidable (_ ≤ _))
  | .draining _ => inferInstanceAs (Decidable (_ ≤ _))
  | .returned _ => .isTrue trivial

/-- What `run` can do is done before the clock goes on, and it stops before it sees to another
accept that has failed. The `select!` of the loop does not see to the latter by itself
(`put_off`). -/
def Prompt (s : State) : Action → Prop
  | .clock t => s.phase.MayWait s t
  | .acceptFailed => s.signalled = false
  | _ => True

instance (s : State) : ∀ a : Action, Decidable (Prompt s a)
  | .clock t => inferInstanceAs (Decidable (s.phase.MayWait s t))
  | .accept => .isTrue trivial
  | .acceptFailed => inferInstanceAs (Decidable (_ = _))
  | .shutdown => .isTrue trivial
  | .stop => .isTrue trivial
  | .resume => .isTrue trivial
  | .receive _ => .isTrue trivial
  | .dispatch _ _ => .isTrue trivial
  | .session _ _ => .isTrue trivial
  | .answered _ => .isTrue trivial
  | .hangUp _ => .isTrue trivial
  | .shed _ => .isTrue trivial
  | .drained => .isTrue trivial
  | .expired => .isTrue trivial

/-- A server that has been told to stop is out of the loop by `b`, and returns by `e`. -/
def Phase.InTime (b e : ℤ) (s : State) : Phase → Prop
  | .accepting => s.now.nanos ≤ b
  | .backoff deadline => s.now.nanos ≤ b ∧ deadline.nanos ≤ b
  | .draining deadline => s.now.nanos ≤ e ∧ deadline.nanos ≤ e
  | .returned _ => s.now.nanos ≤ e

section

variable {srv : Setup} {now : Instant} {s s' : State} {a : Action} {as : List Action} {b e : ℤ}

/-- **The deadlines are kept**, step by step. -/
theorem inTime_step (he : b + srv.cfg.shutdownTimeout.nanos ≤ e) (hsignal : s.signalled = true)
    (hs : s.phase.InTime b e s) (hprompt : Prompt s a) (h : step srv s a = some s') :
    s'.signalled = true ∧ s'.phase.InTime b e s' := by
  obtain ⟨hover, s₁, sessions, hcontrol, -, rfl⟩ := step_cases h
  cases hcontrol with
  | @clock t hle =>
    have hmay : s.phase.MayWait s t := hprompt
    refine ⟨hsignal, ?_⟩
    show s.phase.InTime b e { s with now := t, sessions := sessions }
    cases hphase : s.phase with
    | accepting =>
      rw [hphase] at hs hmay
      exact Int.le_trans (hmay hsignal) hs
    | backoff deadline =>
      rw [hphase] at hs hmay
      exact ⟨Int.le_trans hmay hs.2, hs.2⟩
    | draining deadline =>
      rw [hphase] at hs hmay
      exact ⟨Int.le_trans hmay hs.2, hs.2⟩
    | returned forced =>
      rw [hphase] at hover
      cases hover
  | shutdown hsignal' => cases hsignal'.symm.trans hsignal
  | stop hphase =>
    rw [hphase] at hs
    have hs : s.now.nanos ≤ b := hs
    have hpos := srv.cfg.shutdownTimeout.nanos_nonneg
    have hle := Sse.sleep_le srv.crates s.now srv.cfg.shutdownTimeout
    exact ⟨hsignal, by simp only; omega, by omega⟩
  | acceptFailed hphase => cases hsignal.symm.trans hprompt
  | @resume deadline hphase hdue =>
    rw [hphase] at hs
    exact ⟨hsignal, hs.1⟩
  | @drained deadline hphase hclosed =>
    rw [hphase] at hs
    exact ⟨hsignal, hs.1⟩
  | @expired deadline hphase hdue =>
    rw [hphase] at hs
    exact ⟨hsignal, hs.1⟩
  | _ => exact ⟨hsignal, hs⟩

/-- The loop sleeps for a short time, and is left only when it is told to stop. -/
structure Listening (s : State) : Prop where
  short : ∀ deadline, s.phase = .backoff deadline →
    deadline.nanos ≤ s.now.nanos + backoff * 10 ^ 6
  told : ∀ deadline, s.phase = .draining deadline → s.signalled = true

theorem Listening.step (hs : Listening s) (h : step srv s a = some s') : Listening s' := by
  obtain ⟨-, s₁, sessions, hcontrol, -, rfl⟩ := step_cases h
  refine ⟨fun deadline hphase ↦ ?_, fun deadline hphase ↦ ?_⟩
  · cases hcontrol with
    | clock hle => exact Int.le_trans (hs.short deadline hphase) (Int.add_le_add_right hle _)
    | acceptFailed hphase' =>
      obtain rfl := Phase.backoff.inj hphase
      exact sleepMillis_le srv.crates s.now backoff
    | stop | resume | drained | expired => cases hphase
    | _ => exact hs.short deadline hphase
  · cases hcontrol with
    | stop hphase' hsignal => exact hsignal
    | shutdown hsignal => rfl
    | acceptFailed | resume | drained | expired => cases hphase
    | _ => exact hs.told deadline hphase

theorem listening_run (hrun : Transition.run (step srv) (.init now) as = some s) :
    Listening s := by
  refine Transition.run_induction (P := fun _ s ↦ Listening s) ?_
    (fun _ _ _ _ _ ih hstep ↦ ih.step hstep) hrun
  exact ⟨fun deadline h ↦ Phase.noConfusion h, fun deadline h ↦ Phase.noConfusion h⟩

/-- A server that has just been told to stop is in time. -/
theorem inTime_shutdown (hs : Listening s) (h : step srv s .shutdown = some s') :
    s'.signalled = true ∧ s'.phase.InTime (s.now.nanos + backoff * 10 ^ 6)
      (s.now.nanos + backoff * 10 ^ 6 + srv.cfg.shutdownTimeout.nanos) s' := by
  obtain ⟨hover, s₁, sessions, hcontrol, -, rfl⟩ := step_cases h
  cases hcontrol with
  | shutdown hsignal =>
    refine ⟨rfl, ?_⟩
    have hle : s.now.nanos ≤ s.now.nanos + backoff * 10 ^ 6 :=
      Int.le_add_of_nonneg_right (by decide)
    cases hphase : s.phase with
    | accepting => exact hle
    | backoff deadline => exact ⟨hle, hs.short deadline hphase⟩
    | draining deadline => cases hsignal.symm.trans (hs.told deadline hphase)
    | returned forced =>
      rw [hphase] at hover
      cases hover

/-! ### The way out is open -/

/-- The clock can go on to any later moment. -/
theorem exists_clock (srv : Setup) (hs : Attached s) (hover : s.phase.over = false) {t : Instant}
    (hle : s.now ≤ t) : ∃ sessions, step srv s (.clock t) =
      some { s with now := t, sessions := sessions } := by
  obtain ⟨sessions, hsessions⟩ : ∃ sessions,
      s.sessions.mapM (fun ses ↦ Session.step srv ses (.clock t)) = some sessions := by
    refine Transition.exists_mapM fun ses hses ↦ ?_
    obtain ⟨j, hj⟩ := List.mem_iff_getElem?.1 hses
    have hle : ses.state.now ≤ t := hs.clock j ses hj ▸ hle
    refine ⟨{ ses with state := { ses.state with now := t } }, ?_⟩
    simp [Session.step, Sse.step, hle]
  refine ⟨sessions, ?_⟩
  simp [step, hover, control, hle, effect, Transition.poolStep, hsessions]

/-- In so many prompt steps `run` can return. -/
def CanReturn (srv : Setup) (n : ℕ) (s : State) : Prop :=
  ∃ bs s', bs.length ≤ n ∧ Transition.AllSteps (step srv) Prompt s bs ∧
    Transition.run (step srv) s bs = some s' ∧ s'.phase.over = true

theorem CanReturn.of_step {n : ℕ} (h : step srv s a = some s') (hprompt : Prompt s a)
    (hs : CanReturn srv n s') : CanReturn srv (n + 1) s := by
  obtain ⟨bs, s₁, hlength, hall, hrun, hover⟩ := hs
  refine ⟨a :: bs, s₁, Nat.succ_le_succ hlength, Transition.allSteps_cons.2
    ⟨hprompt, fun s₂ hs₂ ↦ ?_⟩, ?_, hover⟩
  · obtain rfl := Option.some.inj ((Option.mem_def.1 hs₂).symm.trans h)
    exact hall
  · rw [Transition.run, h]
    exact hrun

theorem CanReturn.mono {m n : ℕ} (h : CanReturn srv m s) (hle : m ≤ n) : CanReturn srv n s := by
  obtain ⟨bs, s', hlength, h⟩ := h
  exact ⟨bs, s', Nat.le_trans hlength hle, h⟩

theorem canReturn_of_over (hover : s.phase.over = true) : CanReturn srv 0 s :=
  ⟨[], s, Nat.le_refl _, Transition.allSteps_nil, rfl, hover⟩

/-- Waiting for a deadline that is still to come, if it is. -/
theorem canReturn_of_waiting (hs : Attached s) (hover : s.phase.over = false)
    (deadline : Instant) (hmay : s.phase.MayWait s deadline) {n : ℕ}
    (hdue : ∀ s', deadline ≤ s'.now → Attached s' → s'.phase = s.phase →
      s'.signalled = s.signalled → CanReturn srv n s') : CanReturn srv (n + 1) s := by
  by_cases hle : s.now ≤ deadline
  · obtain ⟨sessions, hclock⟩ := exists_clock srv hs hover hle
    exact .of_step hclock hmay (hdue _ (Int.le_refl _) (hs.step hclock) rfl rfl)
  · have hlt : ¬s.now.nanos ≤ deadline.nanos := hle
    refine (hdue s ?_ hs rfl rfl).mono (Nat.le_succ n)
    show deadline.nanos ≤ s.now.nanos
    omega

theorem canReturn_of_draining (hs : Attached s) {deadline : Instant}
    (hphase : s.phase = .draining deadline) : CanReturn srv 2 s := by
  refine canReturn_of_waiting hs (by rw [hphase]; rfl) deadline ?_
    fun s' hdue hs' hphase' _ ↦ ?_
  · rw [hphase]
    exact Int.le_refl _
  · have hexpired : step srv s' .expired = some { s' with phase := .returned true } := by
      simp [step, control, hphase', hphase, Phase.over, hdue, effect, Transition.poolStep]
    exact .of_step hexpired trivial (canReturn_of_over rfl)

theorem canReturn_of_accepting (hs : Attached s) (hsignal : s.signalled = true)
    (hphase : s.phase = .accepting) : CanReturn srv 3 s := by
  have hstop : step srv s .stop = some { s with
      phase := .draining (srv.crates.sleep s.now srv.cfg.shutdownTimeout) } := by
    simp [step, control, hphase, hsignal, Phase.over, effect, Transition.poolStep]
  exact .of_step hstop trivial (canReturn_of_draining (hs.step hstop) rfl)

/-- **Told to stop, the server can always return.** -/
theorem canReturn (hs : Attached s) (hsignal : s.signalled = true) : CanReturn srv 5 s := by
  cases hphase : s.phase with
  | accepting => exact (canReturn_of_accepting hs hsignal hphase).mono (by decide)
  | draining deadline => exact (canReturn_of_draining hs hphase).mono (by decide)
  | returned forced => exact (canReturn_of_over (by rw [hphase]; rfl)).mono (by decide)
  | backoff deadline =>
    refine canReturn_of_waiting hs (by rw [hphase]; rfl) deadline ?_
      fun s' hdue hs' hphase' hsignal' ↦ ?_
    · rw [hphase]
      exact Int.le_refl _
    · have hresume : step srv s' .resume = some { s' with phase := .accepting } := by
        simp [step, control, hphase', hphase, Phase.over, hdue, effect, Transition.poolStep]
      exact .of_step hresume trivial
        (canReturn_of_accepting (hs'.step hresume) (hsignal'.trans hsignal) rfl)

/-- **The shutdown takes no longer than it may.** However many clients there are and whatever they
do, at most a tenth of a second and the timeout after the server was told to stop `run` has
returned, in a run that is prompt; and such a run can always go on until it has. -/
theorem returns_in_time {pre post : List Action} {s₁ s₂ : State}
    (hpre : Transition.run (step srv) (.init now) pre = some s₁)
    (hshutdown : step srv s₁ .shutdown = some s₂)
    (hprompt : Transition.AllSteps (step srv) Prompt s₂ post)
    (hpost : Transition.run (step srv) s₂ post = some s) :
    s.now.nanos ≤ s₁.now.nanos + backoff * 10 ^ 6 + srv.cfg.shutdownTimeout.nanos ∧
      ∃ bs s', bs.length ≤ 5 ∧ Transition.AllSteps (step srv) Prompt s bs ∧
        Transition.run (step srv) s bs = some s' ∧ s'.phase.over = true := by
  obtain ⟨hattached, hsignal, htime⟩ := hprompt.invariant
    (I := fun s ↦ Attached s ∧ s.signalled = true ∧
      s.phase.InTime (s₁.now.nanos + backoff * 10 ^ 6)
        (s₁.now.nanos + backoff * 10 ^ 6 + srv.cfg.shutdownTimeout.nanos) s)
    ⟨(attached_run hpre).step hshutdown, inTime_shutdown (listening_run hpre) hshutdown⟩
    (fun s a s' ih hprompt hstep ↦ ⟨ih.1.step hstep,
      inTime_step (Int.le_refl _) ih.2.1 ih.2.2 hprompt hstep⟩) hpost
  refine ⟨?_, canReturn hattached hsignal⟩
  have hpos := srv.cfg.shutdownTimeout.nanos_nonneg
  cases hphase : s.phase with
  | accepting =>
    rw [hphase] at htime
    have htime : s.now.nanos ≤ _ := htime
    omega
  | backoff deadline =>
    rw [hphase] at htime
    have htime := htime.1
    omega
  | draining deadline =>
    rw [hphase] at htime
    exact htime.1
  | returned forced =>
    rw [hphase] at htime
    exact htime

end


/-- Accepting has failed, and the server is told to stop while the loop sleeps. -/
def sleepyRun : List Action := [
  .clock (sleepMillis .reference (Sse.second 0) 100), .resume, .stop, .clock (Sse.second 30)]

theorem sleepyRun_spec :
    ∃ s₁ s₂ s, Transition.run (step .reference) (.init (Sse.second 0)) [.accept, .acceptFailed] =
        some s₁ ∧ step .reference s₁ .shutdown = some s₂ ∧
      Transition.AllSteps (step .reference) Prompt s₂ sleepyRun ∧
      Transition.run (step .reference) s₂ sleepyRun = some s ∧ s.phase.over = false ∧
      s₁.now = Sse.second 0 :=
  ⟨_, _, _, rfl, rfl, by decide +kernel, rfl, rfl, rfl⟩

/-- A client who keeps its connection open cannot keep the server. -/
theorem returns_in_time_sleepy :
    ∃ s₁ s₂ s, Transition.run (step .reference) (.init (Sse.second 0)) [.accept, .acceptFailed] =
        some s₁ ∧ step .reference s₁ .shutdown = some s₂ ∧
      Transition.run (step .reference) s₂ sleepyRun = some s ∧
      ∃ bs s', bs.length ≤ 5 ∧ Transition.AllSteps (step .reference) Prompt s bs ∧
        Transition.run (step .reference) s bs = some s' ∧ s'.phase.over = true := by
  obtain ⟨s₁, s₂, s, hpre, hshutdown, hprompt, hpost, -⟩ := sleepyRun_spec
  exact ⟨s₁, s₂, s, hpre, hshutdown, hpost, (returns_in_time hpre hshutdown hprompt hpost).2⟩

/-! ### Put off -/

/-- A step that does not explain a delay by itself: the clock goes on only as far as the loop has to
wait, and where an accept that has failed is seen to, the loop could have stopped instead. -/
def Contended (srv : Setup) (s : State) : Action → Prop
  | .clock t => s.phase.MayWait s t
  | .acceptFailed => (step srv s .stop).isSome
  | _ => True

/-- One more round of the loop: accepting has failed, and the loop sleeps to a deadline. -/
def failedRound (deadline : Instant) : List Action :=
  [.acceptFailed, .clock deadline, .resume]

/-- The loop accepts, and could see that it has been told to stop. -/
structure Told (s : State) : Prop where
  attached : Attached s
  accepting : s.phase = .accepting
  signalled : s.signalled = true

section

variable {srv : Setup} {now : Instant} {s₀ : State}

/-- **One round takes a tenth of a second**, and leaves the loop where it was. -/
theorem exists_failedRound (srv : Setup) (hs : Told s₀)
    (h : s₀.now.nanos + backoff * 10 ^ 6 < 2 ^ 63 * 10 ^ 9) :
    ∃ deadline s, Transition.run (step srv) s₀ (failedRound deadline) = some s ∧
      Transition.AllSteps (step srv) (Contended srv) s₀ (failedRound deadline) ∧ Told s ∧
      s.now.nanos = s₀.now.nanos + backoff * 10 ^ 6 := by
  obtain ⟨hattached, hphase, hsignal⟩ := hs
  obtain ⟨deadline, hsleep, hdeadline⟩ : ∃ deadline,
      sleepMillis srv.crates s₀.now backoff = deadline ∧
        deadline.nanos = s₀.now.nanos + backoff * 10 ^ 6 :=
    ⟨_, rfl, by rw [sleepMillis, dif_pos h]⟩
  have hfailed : step srv s₀ .acceptFailed = some { s₀ with phase := .backoff deadline } := by
    simp [step, control, hphase, hsleep, Phase.over, effect, Transition.poolStep]
  have hle : s₀.now ≤ deadline := by
    show s₀.now.nanos ≤ deadline.nanos
    rw [hdeadline]
    exact Int.le_add_of_nonneg_right (by decide)
  obtain ⟨sessions, hclock⟩ := exists_clock srv (hattached.step hfailed) rfl hle
  have hresume : step srv { s₀ with
      phase := .backoff deadline
      now := deadline
      sessions := sessions } .resume = some { s₀ with
        phase := .accepting
        now := deadline
        sessions := sessions } := by
    have hdue : deadline ≤ deadline := Int.le_refl _
    simp [step, control, hdue, Phase.over, effect, Transition.poolStep]
  have htold : Told { s₀ with
      phase := .accepting
      now := deadline
      sessions := sessions } :=
    ⟨((hattached.step hfailed).step hclock).step hresume, rfl, hsignal⟩
  refine ⟨deadline, _, ?_, ?_, htold, hdeadline⟩
  · rw [failedRound, Transition.run, hfailed, Option.bind_some]
    exact Transition.run_pair hclock hresume
  · -- the loop may stop at the first step, and has to sleep at the second
    refine Transition.allSteps_cons.2 ⟨?_, fun s₁ hs₁ ↦ ?_⟩
    · simp [Contended, step, control, hphase, hsignal, Phase.over, effect, Transition.poolStep]
    · obtain rfl := Option.some.inj (hfailed.symm.trans hs₁)
      refine Transition.allSteps_cons.2 ⟨Int.le_refl _, fun s₂ hs₂ ↦ ?_⟩
      exact Transition.allSteps_cons.2 ⟨trivial, fun s₃ hs₃ ↦ Transition.allSteps_nil⟩

/-- **Failing accepts can put the shutdown off**, for as long as timers can be set. From any state
in which the loop accepts and has been told to stop, it may see to one failing accept after the
other, and sleep after each; nothing else delays it, and at each of them it could have stopped. -/
theorem put_off {pre : List Action} (hpre : Transition.run (step srv) (.init now) pre = some s₀)
    (hphase : s₀.phase = .accepting) (hsignal : s₀.signalled = true) (n : ℕ)
    (h : s₀.now.nanos + n * (backoff * 10 ^ 6) + 999999 < 2 ^ 63 * 10 ^ 9) :
    ∃ (deadlines : List Instant) (s : State), deadlines.length = n ∧
      Transition.run (step srv) s₀ (deadlines.flatMap failedRound) = some s ∧
      Transition.AllSteps (step srv) (Contended srv) s₀ (deadlines.flatMap failedRound) ∧
      s.phase = .accepting ∧ s.signalled = true ∧
      s.now.nanos = s₀.now.nanos + n * (backoff * 10 ^ 6) := by
  suffices hrounds : ∃ (deadlines : List Instant) (s : State), deadlines.length = n ∧
      Transition.run (step srv) s₀ (deadlines.flatMap failedRound) = some s ∧
      Transition.AllSteps (step srv) (Contended srv) s₀ (deadlines.flatMap failedRound) ∧
      Told s ∧ s.now.nanos = s₀.now.nanos + n * (backoff * 10 ^ 6) by
    obtain ⟨deadlines, s, hlength, hrun, hall, htold, hnow⟩ := hrounds
    exact ⟨deadlines, s, hlength, hrun, hall, htold.accepting, htold.signalled, hnow⟩
  induction n with
  | zero =>
    exact ⟨[], s₀, rfl, rfl, Transition.allSteps_nil, ⟨attached_run hpre, hphase, hsignal⟩,
      by simp⟩
  | succ n ih =>
    have hsucc : ((n + 1 : ℕ) : ℤ) * (backoff * 10 ^ 6) =
        n * (backoff * 10 ^ 6) + backoff * 10 ^ 6 := by
      rw [Nat.cast_succ, Int.add_mul, Int.one_mul]
    have hpos : (0 : ℤ) ≤ backoff * 10 ^ 6 := by decide
    rw [hsucc] at h ⊢
    obtain ⟨deadlines, s, hlength, hrun, hall, htold, hnow⟩ := ih (by omega)
    obtain ⟨deadline, s', hround, hallround, htold', hnow'⟩ :=
      exists_failedRound srv htold (by omega)
    refine ⟨deadlines ++ [deadline], s', by simp [hlength], ?_, ?_, htold', by omega⟩
    · rw [List.flatMap_append, List.flatMap_singleton, Transition.run_append, hrun]
      exact hround
    · rw [List.flatMap_append, List.flatMap_singleton]
      exact hall.append hrun hallround

end

/-- Told to stop before it has accepted anything, the server may still be in its loop a second
later. -/
theorem put_off_once :
    ∃ s₀ s, Transition.run (step .reference) (.init (Sse.second 0)) [.shutdown] = some s₀ ∧
      ∃ deadlines : List Instant, deadlines.length = 10 ∧
        Transition.run (step .reference) s₀ (deadlines.flatMap failedRound) = some s ∧
        s.phase = .accepting ∧ s.now.nanos = (Sse.second 1).nanos := by
  have hstart : Transition.run (step .reference) (.init (Sse.second 0)) [.shutdown] =
      some { State.init (Sse.second 0) with signalled := true } := rfl
  obtain ⟨deadlines, s, hlength, hrun, -, hphase, -, hnow⟩ :=
    put_off hstart rfl rfl 10 (by decide)
  exact ⟨_, s, hstart, deadlines, hlength, hrun, hphase, hnow⟩

end KeepSse.Server
