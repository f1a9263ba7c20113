import KeepSse.Handle
import KeepSse.Pool
import KeepSse.Sse.Silence

/-!
# The server

`run` accepts connections until it is told to stop, and then gives those it has a limited time to
come to an end. Each connection serves one request after the other; a request of the SSE path starts
a **session**, a state machine of `Sse.Task` with a task of its own, which the server does not wait
for: it outlives a connection that is dropped.

The server is a machine that keeps a pool of sessions. A step has two parts: what happens to the
loop and to the connections (`control`), and what happens to the sessions (`effect`). The clock is
one for all of them; a client who hangs up disconnects the session that serves it.

What a connection does between requests is the library's affair. Of that the model has what the
gateway relies on: a connection serves one request at a time, and during a graceful shutdown an idle
one is closed (`Action.shed`). A handler that panics takes its connection with it.
-/

namespace KeepSse.Server

open Text Http

/-- What `run` is called with. -/
structure Setup where
  crates : Crates
  profile : Profile
  cfg : ResolvedConfig

def Setup.gateway (srv : Setup) (kind : EndpointKind) : Sse.Gateway :=
  ⟨srv.crates, srv.profile, srv.cfg, kind⟩

/-! ### Time -/

/-- The milliseconds for which the loop sleeps when accepting has failed. -/
def backoff : ℕ := 100

/-- `tokio::time::sleep` for some milliseconds. -/
def sleepMillis (D : Crates) (now : Instant) (ms : ℕ) : Instant :=
  if h : now.nanos + ms * 10 ^ 6 < 2 ^ 63 * 10 ^ 9 then
    ⟨now.nanos + ms * 10 ^ 6, by have := now.lower; omega, h⟩
  else D.farFuture now

theorem sleepMillis_le (D : Crates) (now : Instant) (ms : ℕ) :
    (sleepMillis D now ms).nanos ≤ now.nanos + ms * 10 ^ 6 := by
  unfold sleepMillis
  split_ifs with h
  · exact Int.le_refl _
  · have := (D.farFuture now).upper
    omega

/-! ### Connections and sessions -/

/-- Where a connection is. -/
inductive Conn where
  /-- Between two requests. -/
  | idle
  /-- A request has begun, and its handler may have to collect the body. -/
  | handling
  /-- A response is under way that no session makes. -/
  | answering
  /-- A session makes the response. -/
  | streaming (j : ℕ)
  | closed
  deriving DecidableEq

/-- A request on the SSE path. -/
structure Session where
  kind : EndpointKind
  state : Sse.State

/-- The actions that a session has in common with the server: the clock goes on, and the client's
connection is gone. -/
def Shared : Sse.Action → Bool
  | .clock _ => true
  | .disconnect => true
  | _ => false

/-- A step of a session. -/
def Session.step (srv : Setup) (ses : Session) (a : Sse.Action) : Option Session :=
  (Sse.step (srv.gateway ses.kind) ses.state a).map fun s ↦ { ses with state := s }

/-- The response has been taken to its end: the channel is empty and its sender is gone. -/
def Session.ended (ses : Session) : Bool :=
  match ses.state.task with
  | .finished => ses.state.queue.isEmpty
  | .panicked => ses.state.queue.isEmpty
  | _ => false

/-! ### The machine -/

/-- Where `run` is. -/
inductive Phase where
  /-- In the loop, waiting for a connection or for the shutdown. -/
  | accepting
  /-- Accepting has failed, and the loop sleeps. -/
  | backoff (deadline : Instant)
  /-- After the loop, waiting for the connections or for the timeout. -/
  | draining (deadline : Instant)
  /-- It has returned, on a timeout or not. -/
  | returned (forced : Bool)
  deriving DecidableEq

structure State where
  now : Instant
  phase : Phase
  /-- The `shutdown` future has completed. -/
  signalled : Bool
  conns : List Conn
  sessions : List Session
  /-- The requests sent upstream. -/
  requests : List (Request BoxBody)

inductive Action where
  | clock (t : Instant)
  /-- The `shutdown` future completes. -/
  | shutdown
  /-- The loop sees that it has. -/
  | stop
  | accept
  | acceptFailed
  | resume
  /-- A request begins to arrive on a connection. -/
  | receive (i : ℕ)
  /-- The handler has what it needs of a request. -/
  | dispatch (i : ℕ) (req : Request Incoming)
  /-- Something happens in a session. -/
  | session (j : ℕ) (a : Sse.Action)
  /-- The response on a connection is complete. -/
  | answered (i : ℕ)
  /-- A connection ends, for whatever reason on the client's side. -/
  | hangUp (i : ℕ)
  /-- The graceful shutdown closes an idle connection. -/
  | shed (i : ℕ)
  /-- All connections are closed. -/
  | drained
  /-- The time for that is over. -/
  | expired

/-- What a request comes to when it is dispatched. -/
inductive Served where
  | panicked
  | answering (reqs : List (Request BoxBody))
  | streaming (ses : Session)

/-- Dispatch a request. -/
def serve (srv : Setup) (now : Instant) (req : Request Incoming) : Served :=
  match handle srv.profile srv.crates srv.cfg req with
  | none => .panicked
  | some (.handleStream kind parts body) =>
    match Sse.handleStream (srv.gateway kind) parts body now with
    | some s => .streaming ⟨kind, s⟩
    | none => .panicked
  | some exit =>
    match exit.requests srv.profile srv.crates srv.cfg now with
    | some reqs => .answering reqs
    | none => .panicked

/-- The requests that this sends upstream. -/
def Served.requests : Served → List (Request BoxBody)
  | .panicked => []
  | .answering reqs => reqs
  | .streaming ses => ses.state.requests

/-- Where it leaves the connection, when so many sessions have been started before. -/
def Served.conn (sessions : ℕ) : Served → Conn
  | .panicked => .closed
  | .answering _ => .answering
  | .streaming _ => .streaming sessions

/-- What happens to the sessions. -/
def effect (srv : Setup) (s : State) : Action → Transition.PoolAction Session Sse.Action
  | .clock t => .all (.clock t)
  | .session j a => .one j a
  | .dispatch _ req =>
    match serve srv s.now req with
    | .streaming ses => .new ses
    | _ => .rest
  | .hangUp i =>
    match s.conns[i]? with
    | some (.streaming j) => .one j .disconnect
    | _ => .rest
  | _ => .rest

/-- What happens to everything else, if it is possible. -/
def control (srv : Setup) (s : State) : Action → Option State
  | .clock t => if s.now ≤ t then some { s with now := t } else none
  | .shutdown => if s.signalled then none else some { s with signalled := true }
  | .stop =>
    if s.phase = .accepting ∧ s.signalled = true then
      some { s with phase := .draining (srv.crates.sleep s.now srv.cfg.shutdownTimeout) }
    else none
  | .accept =>
    if s.phase = .accepting then some { s with conns := s.conns ++ [.idle] } else none
  | .acceptFailed =>
    if s.phase = .accepting then
      some { s with phase := .backoff (sleepMillis srv.crates s.now backoff) }
    else none
  | .resume =>
    match s.phase with
    | .backoff deadline => if deadline ≤ s.now then some { s with phase := .accepting } else none
    | _ => none
  | .receive i =>
    if s.conns[i]? = some .idle then some { s with conns := s.conns.set i .handling } else none
  | .dispatch i req =>
    if s.conns[i]? = some .handling then
      let served := serve srv s.now req
      some { s with
        conns := s.conns.set i (served.conn s.sessions.length)
        requests := s.requests ++ served.requests }
    else none
  | .session _ a => if Shared a then none else some s
  | .answered i =>
    match s.conns[i]? with
    | some .answering => some { s with conns := s.conns.set i .idle }
    | some (.streaming j) =>
      if s.sessions[j]?.any Session.ended then some { s with conns := s.conns.set i .idle }
      else none
    | _ => none
  | .hangUp i =>
    match s.conns[i]? with
    | some .closed => none
    | some _ => some { s with conns := s.conns.set i .closed }
    | none => none
  | .shed i =>
    match s.phase with
    | .draining _ =>
      if s.conns[i]? = some .idle then some { s with conns := s.conns.set i .closed } else none
    | _ => none
  | .drained =>
    match s.phase with
    | .draining _ =>
      if ∀ c ∈ s.conns, c = .closed then some { s with phase := .returned false } else none
    | _ => none
  | .expired =>
    match s.phase with
    | .draining deadline =>
      if deadline ≤ s.now then some { s with phase := .returned true } else none
    | _ => none

/-- `run` has returned, and the process ends. -/
def Phase.over : Phase → Bool
  | .returned _ => true
  | _ => false

/-- **One step**, if it is possible. -/
def step (srv : Setup) (s : State) (a : Action) : Option State :=
  if s.phase.over then none
  else do
    let s' ← control srv s a
    let sessions ← Transition.poolStep (Session.step srv) s.sessions (effect srv s a)
    some { s' with sessions := sessions }

/-- `run` is called. -/
def State.init (now : Instant) : State where
  now := now
  phase := .accepting
  signalled := false
  conns := []
  sessions := []
  requests := []

/-! ### What a step can do -/

/-- The branches of `control`. -/
inductive Control (srv : Setup) (s : State) : Action → State → Prop where
  | clock {t : Instant} (hle : s.now ≤ t) : Control srv s (.clock t) { s with now := t }
  | shutdown (hsignal : s.signalled = false) :
    Control srv s .shutdown { s with signalled := true }
  | stop (hphase : s.phase = .accepting) (hsignal : s.signalled = true) :
    Control srv s .stop
      { s with phase := .draining (srv.crates.sleep s.now srv.cfg.shutdownTimeout) }
  | accept (hphase : s.phase = .accepting) :
    Control srv s .accept { s with conns := s.conns ++ [.idle] }
  | acceptFailed (hphase : s.phase = .accepting) :
    Control srv s .acceptFailed
      { s with phase := .backoff (sleepMillis srv.crates s.now backoff) }
  | resume {deadline : Instant} (hphase : s.phase = .backoff deadline) (hdue : deadline ≤ s.now) :
    Control srv s .resume { s with phase := .accepting }
  | receive {i : ℕ} (hconn : s.conns[i]? = some .idle) :
    Control srv s (.receive i) { s with conns := s.conns.set i .handling }
  | dispatch {i : ℕ} {req : Request Incoming} (hconn : s.conns[i]? = some .handling) :
    Control srv s (.dispatch i req) { s with
      conns := s.conns.set i ((serve srv s.now req).conn s.sessions.length)
      requests := s.requests ++ (serve srv s.now req).requests }
  | session {j : ℕ} {a : Sse.Action} (hshared : Shared a = false) : Control srv s (.session j a) s
  | answered {i : ℕ} (hconn : s.conns[i]? = some .answering) :
    Control srv s (.answered i) { s with conns := s.conns.set i .idle }
  | streamed {i j : ℕ} {ses : Session} (hconn : s.conns[i]? = some (.streaming j))
    (hses : s.sessions[j]? = some ses) (hended : ses.ended = true) :
    Control srv s (.answered i) { s with conns := s.conns.set i .idle }
  | hangUp {i : ℕ} {c : Conn} (hconn : s.conns[i]? = some c) (hopen : c ≠ .closed) :
    Control srv s (.hangUp i) { s with conns := s.conns.set i .closed }
  | shed {i : ℕ} {deadline : Instant} (hphase : s.phase = .draining deadline)
    (hconn : s.conns[i]? = some .idle) :
    Control srv s (.shed i) { s with conns := s.conns.set i .closed }
  | drained {deadline : Instant} (hphase : s.phase = .draining deadline)
    (hclosed : ∀ c ∈ s.conns, c = .closed) :
    Control srv s .drained { s with phase := .returned false }
  | expired {deadline : Instant} (hphase : s.phase = .draining deadline)
    (hdue : deadline ≤ s.now) : Control srv s .expired { s with phase := .returned true }

theorem Control.of_control {srv : Setup} {s s' : State} {a : Action}
    (h : control srv s a = some s') : Control srv s a s' := by
  cases a with
  | clock t =>
    simp only [control, Option.ite_none_right_eq_some, Option.some.injEq] at h
    obtain ⟨hle, rfl⟩ := h
    exact .clock hle
  | shutdown =>
    simp only [control, Option.ite_none_left_eq_some, Option.some.injEq,
      Bool.not_eq_true] at h
    obtain ⟨hsignal, rfl⟩ := h
    exact .shutdown hsignal
  | stop =>
    simp only [control, Option.ite_none_right_eq_some, Option.some.injEq] at h
    obtain ⟨⟨hphase, hsignal⟩, rfl⟩ := h
    exact .stop hphase hsignal
  | accept =>
    simp only [control, Option.ite_none_right_eq_some, Option.some.injEq] at h
    obtain ⟨hphase, rfl⟩ := h
    exact .accept hphase
  | acceptFailed =>
    simp only [control, Option.ite_none_right_eq_some, Option.some.injEq] at h
    obtain ⟨hphase, rfl⟩ := h
    exact .acceptFailed hphase
  | resume =>
    simp only [control] at h
    split at h
    · next deadline hphase =>
      simp only [Option.ite_none_right_eq_some, Option.some.injEq] at h
      obtain ⟨hdue, rfl⟩ := h
      exact .resume hphase hdue
    · cases h
  | receive i =>
    simp only [control, Option.ite_none_right_eq_some, Option.some.injEq] at h
    obtain ⟨hconn, rfl⟩ := h
    exact .receive hconn
  | dispatch i req =>
    simp only [control, Option.ite_none_right_eq_some, Option.some.injEq] at h
    obtain ⟨hconn, rfl⟩ := h
    exact .dispatch hconn
  | session j a =>
    simp only [control, Option.ite_none_left_eq_some, Option.some.injEq, Bool.not_eq_true] at h
    obtain ⟨hshared, rfl⟩ := h
    exact .session hshared
  | answered i =>
    simp only [control] at h
    split at h
    · next hconn =>
      obtain rfl := Option.some.inj h
      exact .answered hconn
    · next j hconn =>
      simp only [Option.ite_none_right_eq_some, Option.some.injEq, Option.any_eq_true] at h
      obtain ⟨⟨ses, hses, hended⟩, rfl⟩ := h
      exact .streamed hconn hses hended
    · cases h
  | hangUp i =>
    simp only [control] at h
    split at h
    · cases h
    · next c hopen hconn =>
      obtain rfl := Option.some.inj h
      exact .hangUp hconn hopen
    · cases h
  | shed i =>
    simp only [control] at h
    split at h
    · next deadline hphase =>
      simp only [Option.ite_none_right_eq_some, Option.some.injEq] at h
      obtain ⟨hconn, rfl⟩ := h
      exact .shed hphase hconn
    · cases h
  | drained =>
    simp only [control] at h
    split at h
    · next deadline hphase =>
      simp only [Option.ite_none_right_eq_some, Option.some.injEq] at h
      obtain ⟨hclosed, rfl⟩ := h
      exact .drained hphase hclosed
    · cases h
  | expired =>
    simp only [control] at h
    split at h
    · next deadline hphase =>
      simp only [Option.ite_none_right_eq_some, Option.some.injEq] at h
      obtain ⟨hdue, rfl⟩ := h
      exact .expired hphase hdue
    · cases h

/-- **A step is its two parts**, before `run` has returned. -/
theorem step_cases {srv : Setup} {s s' : State} {a : Action} (h : step srv s a = some s') :
    s.phase.over = false ∧ ∃ s₁ sessions, Control srv s a s₁ ∧
      Transition.poolStep (Session.step srv) s.sessions (effect srv s a) = some sessions ∧
      s' = { s₁ with sessions := sessions } := by
  simp only [step, Option.ite_none_left_eq_some, Option.bind_eq_bind, Option.bind_eq_some_iff,
    Option.some.injEq, Bool.not_eq_true] at h
  obtain ⟨hover, s₁, hcontrol, sessions, hsessions, rfl⟩ := h
  exact ⟨hover, s₁, sessions, .of_control hcontrol, hsessions, rfl⟩

/-- **The server keeps a pool of sessions.** -/
theorem keeps (srv : Setup) :
    Transition.Keeps (Session.step srv) (step srv) State.sessions (effect srv) := by
  intro s a s' hstep
  obtain ⟨-, s₁, sessions, -, hsessions, rfl⟩ := step_cases hstep
  exact hsessions

end KeepSse.Server
