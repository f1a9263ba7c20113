import KeepSse.Server.Sessions
import KeepSse.UpstreamHead
import Mathlib.Data.List.ReduceOption

/-!
# No request is lost or sent twice

Many clients send requests at the same time, each answered by a handler of its own. What the
upstream sees of that is one request for each request of a client, in the order in which they were
dispatched, with the head that the proxy makes of the client's and with the body as it came; and
nothing for the requests that the gateway answers itself (`sent_once`). There are no retries: a
session makes its request when it is started and no other, however long it lasts.

## What it rests on

* For one request: what a handler sends is decided by the exit that dispatch comes to, and is one
  request or none (`outcome_of_exit`, `outcome_of_serve`). The three exits that send one build it in
  the same way, from the client's head, so that the outcome does not depend on the path that was
  taken (`Outcome`).
* For one step: requests are sent where a request is dispatched and nowhere else (`requests_step`),
  and no step of a session makes another one (`requests_of_step`).
* For a run: the log of the requests grows by the outcomes, in their order, and the request of every
  session is in it (`Logged`).

A handler may panic, on a configuration or at a moment that `Safety` excludes; then nothing is sent
for its request. This is an outcome of its own here, so that the result holds of every run.
-/

namespace KeepSse.Server

open Text Http

/-- The requests of the clients, as they are dispatched. -/
def dispatched : List Action → List (Request Incoming) :=
  List.filterMap fun
    | .dispatch _ req => some req
    | _ => none

/-- What the upstream is sent for a request: its head as the proxy forwards it, with the body as it
arrives or with all of it. -/
def Forwarded (srv : Setup) (req : Request Incoming) (r : Request BoxBody) : Prop :=
  proxyReq srv.crates srv.cfg ⟨req.parts, .incoming req.body⟩ = some r ∨
    req.body.failure = none ∧
      proxyReq srv.crates srv.cfg ⟨req.parts, .full req.body.bytes⟩ = some r

/-- What the upstream is sent for a request, if anything. Nothing is sent if the gateway has an
answer of its own, or if the handler panics. -/
def Outcome (srv : Setup) (req : Request Incoming) : Option (Request BoxBody) → Prop
  | some r => Forwarded srv req r
  | none => (∃ resp, handle srv.profile srv.crates srv.cfg req = some (.respond resp)) ∨
    handle srv.profile srv.crates srv.cfg req = none ∨
    ∃ exit now, handle srv.profile srv.crates srv.cfg req = some exit ∧
      exit.requests srv.profile srv.crates srv.cfg now = none

section

variable {srv : Setup} {req : Request Incoming} {now : Instant}

/-- The requests of an exit are those of its outcome. -/
theorem outcome_of_exit {exit : Exit} {reqs : List (Request BoxBody)}
    (hexit : handle srv.profile srv.crates srv.cfg req = some exit)
    (hreqs : exit.requests srv.profile srv.crates srv.cfg now = some reqs) :
    ∃ o, reqs = o.toList ∧ Outcome srv req o := by
  rcases handle_cases srv.profile srv.crates srv.cfg req with hproxy | ⟨kind, hprobes⟩
  · obtain rfl := Option.some.inj (hproxy.symm.trans hexit)
    obtain ⟨r, hr, rfl⟩ := Option.map_eq_some_iff.1 hreqs
    exact ⟨some r, rfl, .inl hr⟩
  · rw [hexit] at hprobes
    cases hprobes with
    | tooLarge hlimit => exact ⟨none, (Option.some.inj hreqs).symm, .inl ⟨_, hexit⟩⟩
    | unreadable hlimit hfailure =>
      exact ⟨none, (Option.some.inj hreqs).symm, .inl ⟨_, hexit⟩⟩
    | buffered hlimit hfailure hasks =>
      obtain ⟨r, hr, rfl⟩ := Option.map_eq_some_iff.1 hreqs
      exact ⟨some r, rfl, .inr ⟨hfailure, hr⟩⟩
    | stream hlimit hfailure hasks =>
      obtain ⟨st, hst, rfl⟩ := Option.map_eq_some_iff.1 hreqs
      obtain ⟨r, hr, hone⟩ := Sse.requests_run hst (Transition.run_nil _ st)
      rw [buildUpstreamRequest_eq] at hr
      exact ⟨some r, hone, .inr ⟨hfailure, hr⟩⟩

theorem outcome_of_serve (srv : Setup) (req : Request Incoming) (now : Instant) :
    ∃ o, (serve srv now req).requests = o.toList ∧ Outcome srv req o := by
  unfold serve
  split
  · next hnone => exact ⟨none, rfl, .inr (.inl hnone)⟩
  · next kind parts body hexit =>
    split
    · next st hst =>
      exact outcome_of_exit hexit (congrArg (Option.map Sse.State.requests) hst)
    · next hnone =>
      exact ⟨none, rfl, .inr (.inr ⟨_, now, hexit,
        congrArg (Option.map Sse.State.requests) hnone⟩)⟩
  · next exit hnot hexit =>
    split
    · next reqs hreqs => exact outcome_of_exit hexit hreqs
    · next hnone => exact ⟨none, rfl, .inr (.inr ⟨exit, now, hexit, hnone⟩)⟩

end

section

variable {srv : Setup} {s s' : State} {a : Action}

/-- A session never makes another request. -/
theorem requests_of_step {g : Sse.Gateway} {st st' : Sse.State} {b : Sse.Action}
    (h : Sse.Step g st b st') : st'.requests = st.requests := by
  cases h <;> rfl

/-- Requests are sent only for a request that is dispatched. -/
theorem requests_step (h : step srv s a = some s') :
    ∃ os, List.Forall₂ (Outcome srv) (dispatched [a]) os ∧
      s'.requests = s.requests ++ os.reduceOption := by
  obtain ⟨-, s₁, sessions, hcontrol, -, rfl⟩ := step_cases h
  cases hcontrol with
  | @dispatch i req hconn =>
    obtain ⟨o, hreqs, ho⟩ := outcome_of_serve srv req s.now
    refine ⟨[o], .cons ho .nil, ?_⟩
    simp only [hreqs]
    cases o <;> rfl
  | _ => exact ⟨[], .nil, (List.append_nil _).symm⟩

/-- The request of every session is one of those sent. -/
def Logged (s : State) : Prop :=
  ∀ (j : ℕ) (ses : Session), s.sessions[j]? = some ses →
    ∃ r ∈ s.requests, ses.state.requests = [r]

theorem Logged.step (hs : Logged s) (h : step srv s a = some s') : Logged s' := by
  intro j ses' hses'
  obtain ⟨os, -, hrequests⟩ := requests_step h
  rcases session_cases h hses' with ⟨ses, hses, -, hshare⟩ | hnew
  · obtain ⟨r, hr, hone⟩ := hs j ses hses
    refine ⟨r, ?_, ?_⟩
    · rw [hrequests]
      exact List.mem_append_left _ hr
    · rcases hshare with ⟨-, rfl⟩ | ⟨b, -, hstep⟩
      · exact hone
      · rw [requests_of_step hstep, hone]
  · obtain ⟨i, req, rfl, hserve⟩ := effect_new hnew.1
    obtain ⟨-, s₁, sessions, hcontrol, -, rfl⟩ := step_cases h
    cases hcontrol with
    | dispatch hconn =>
      obtain ⟨parts, body, -, hbegun⟩ := serve_streaming hserve
      obtain ⟨r, -, hone⟩ := Sse.requests_run hbegun (Transition.run_nil _ _)
      refine ⟨r, ?_, hone⟩
      simp [hserve, Served.requests, hone]

end

/-- **No request is lost or sent twice.** Of the requests that the clients have made, in the order
of their dispatch, each has been sent upstream once, as the proxy makes it, with the client's body;
or it has been answered by the gateway itself, or its handler has panicked. Nothing else has been
sent, and no session will ever send more than the one request that started it. -/
theorem sent_once {srv : Setup} {now : Instant} {s : State} {as : List Action}
    (hrun : Transition.run (step srv) (.init now) as = some s) :
    (∃ os, List.Forall₂ (Outcome srv) (dispatched as) os ∧ s.requests = os.reduceOption) ∧
      ∀ (j : ℕ) (ses : Session), s.sessions[j]? = some ses →
        ∃ r ∈ s.requests, ses.state.requests = [r] := by
  refine Transition.run_induction (P := fun as s ↦
    (∃ os, List.Forall₂ (Outcome srv) (dispatched as) os ∧ s.requests = os.reduceOption) ∧
      Logged s) ⟨⟨[], .nil, rfl⟩, fun j ses h ↦ by simp [State.init] at h⟩ ?_ hrun
  rintro as a s₁ s₂ - ⟨⟨os, hos, hrequests⟩, hlogged⟩ hstep
  obtain ⟨os', hos', hrequests'⟩ := requests_step hstep
  refine ⟨⟨os ++ os', ?_, ?_⟩, hlogged.step hstep⟩
  · have happend : dispatched (as ++ [a]) = dispatched as ++ dispatched [a] :=
      List.filterMap_append
    rw [happend]
    exact List.rel_append hos hos'
  · rw [hrequests', hrequests, List.reduceOption_append]

/-- Two clients, two requests. -/
theorem sent_once_twoClients :
    ∃ s os, Transition.run (step .reference) (.init (Sse.second 0)) twoClients = some s ∧
      List.Forall₂ (Outcome .reference) [streamRequest, streamRequest] os ∧
      s.requests = os.reduceOption := by
  obtain ⟨s, ses, hrun, -⟩ := twoClients_spec
  obtain ⟨os, hos, hrequests⟩ := (sent_once hrun).1
  exact ⟨s, os, hrun, hos, hrequests⟩

end KeepSse.Server
