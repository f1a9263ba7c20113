import KeepSse.Server.Sessions
import KeepSse.Sse.Keepalive

/-!
# Every client is kept alive

`Sse.Keepalive` bounds the silence of one session. The bound holds of every session of a server at
the same time, however many there are and whatever becomes of the others (`kept_alive`).

## What it rests on

* A session whose steps are prompt in the server is prompt on its own (`prompt_shares`). The clock
  is one for all, so it may go on only if no session has anything to do before that; and what is
  asked of the server is just this (`SessionsPrompt`), with no condition on its loop or its
  connections.
* So the lull of a timer is the one of the session's own run (`Sse.lull_run`), as long as the
  session has not written in the run of the server (`sent_not_mem`, `lull_shares`).
* Between the dispatch of a request and the first action of its session nothing can be late: the
  session is started with a timer that is due an interval after the dispatch.

## What ends a lull

Three things may be seen at its end in place of a write: the task is over; it waits for room in the
channel, that is for its own client; or the upstream has left the tracker in the middle of an event
or of a comment line, and a heartbeat would fall into it. None of them is caused by another client.
-/

namespace KeepSse.Server

open Text Http

/-- What the sessions can do is done before the clock goes on. -/
def SessionsPrompt (s : State) (a : Action) : Prop :=
  ∀ t, a = .clock t → ∀ ses ∈ s.sessions, ses.state.task.MayWait ses.state t

instance (s : State) : ∀ a : Action, Decidable (SessionsPrompt s a)
  | .clock t => decidable_of_iff (∀ ses ∈ s.sessions, ses.state.task.MayWait ses.state t)
    (by simp [SessionsPrompt])
  | .shutdown => .isTrue fun _ h ↦ Action.noConfusion h
  | .stop => .isTrue fun _ h ↦ Action.noConfusion h
  | .accept => .isTrue fun _ h ↦ Action.noConfusion h
  | .acceptFailed => .isTrue fun _ h ↦ Action.noConfusion h
  | .resume => .isTrue fun _ h ↦ Action.noConfusion h
  | .receive _ => .isTrue fun _ h ↦ Action.noConfusion h
  | .dispatch _ _ => .isTrue fun _ h ↦ Action.noConfusion h
  | .session _ _ => .isTrue fun _ h ↦ Action.noConfusion h
  | .answered _ => .isTrue fun _ h ↦ Action.noConfusion h
  | .hangUp _ => .isTrue fun _ h ↦ Action.noConfusion h
  | .shed _ => .isTrue fun _ h ↦ Action.noConfusion h
  | .drained => .isTrue fun _ h ↦ Action.noConfusion h
  | .expired => .isTrue fun _ h ↦ Action.noConfusion h

section

variable {srv : Setup} {now : Instant} {s s' : State} {as : List Action} {j : ℕ} {ses : Session}

/-- The run of a session is prompt if that of the server is. -/
theorem prompt_shares (hprompt : Transition.AllSteps (step srv) SessionsPrompt s as)
    (hrun : Transition.run (step srv) s as = some s') (hses : s.sessions[j]? = some ses) :
    Transition.AllSteps (Sse.step (srv.gateway ses.kind)) Sse.Prompt ses.state
      (Transition.shares (step srv) (effect srv) j s as) := by
  refine allSteps_session ((keeps srv).allSteps_shares hrun hses ?_)
  intro pre a post s₁ has hpre ses₁ b hses₁ hb t ht
  subst ht
  obtain ⟨s₂, hstep⟩ := Transition.step_of_run has hpre hrun
  obtain ⟨-, s₃, sessions, hcontrol, -, -⟩ := step_cases hstep
  rcases share_cases hcontrol hb with ⟨t', rfl, heq⟩ | ⟨i, -, -, heq⟩ | ⟨-, hshared⟩
  · obtain rfl := Sse.Action.clock.inj heq
    exact hprompt pre (.clock t) post s₁ has hpre t rfl ses₁ (List.mem_of_getElem? hses₁)
  · cases heq
  · cases hshared

/-- Without a write of the session in the run of the server there is none in its share. -/
theorem sent_not_mem (hrun : Transition.run (step srv) s as = some s')
    (h : .session j .sent ∉ as) :
    .sent ∉ Transition.shares (step srv) (effect srv) j s as := by
  intro hsent
  have hown : Sse.Action.sent ∈ own j as := by
    rw [← filter_shares hrun]
    exact List.mem_filter.2 ⟨hsent, rfl⟩
  obtain ⟨a, ha, hb⟩ := List.mem_filterMap.1 hown
  cases a with
  | session k b =>
    simp only [Option.ite_none_right_eq_some, Option.some.injEq] at hb
    obtain ⟨rfl, rfl⟩ := hb
    exact h ha
  | _ => cases hb

/-- What happens in a session is a step of it. -/
theorem session_step {a : Sse.Action} (h : step srv s (.session j a) = some s')
    (hses : s.sessions[j]? = some ses) :
    ∃ ses', s'.sessions[j]? = some ses' ∧ ses'.kind = ses.kind ∧
      Sse.Step (srv.gateway ses.kind) ses.state a ses'.state := by
  have hshare : (effect srv s (.session j a)).share j = some a := by
    simp [effect, Transition.PoolAction.share]
  obtain ⟨ses', hses', -⟩ := Transition.poolStep_member (keeps srv _ _ _ h) hses
  rcases session_cases h hses' with ⟨ses₁, hses₁, hkind, hcases⟩ | hnew
  · obtain rfl := Option.some.inj (hses.symm.trans hses₁)
    rcases hcases with ⟨hnone, -⟩ | ⟨b, hb, hstep⟩
    · cases hnone.symm.trans hshare
    · obtain rfl := Option.some.inj (hb.symm.trans hshare)
      exact ⟨ses', hses', hkind, hstep⟩
  · cases hnew.1

/-- The lull of a session lasts while it does not write. -/
theorem lull_shares {b : ℤ} {ses' : Session}
    (hprompt : Transition.AllSteps (step srv) SessionsPrompt s as)
    (hrun : Transition.run (step srv) s as = some s') (has : .session j .sent ∉ as)
    (hses : s.sessions[j]? = some ses) (hses' : s'.sessions[j]? = some ses')
    (hlull : ses.state.task.Lull (srv.gateway ses.kind) b ses.state) :
    ses'.state.task.Lull (srv.gateway ses'.kind) b ses'.state := by
  obtain ⟨ses₁, hses₁, hshare⟩ := (keeps srv).run_member hrun hses
  obtain rfl := Option.some.inj (hses₁.symm.trans hses')
  rw [run_session, Option.map_eq_some_iff] at hshare
  obtain ⟨st, hst, rfl⟩ := hshare
  have hown := prompt_shares hprompt hrun hses
  exact Sse.lull_run hown (sent_not_mem hrun has) hlull hst

/-- **Every client is kept alive.** In a run in which the tasks are run promptly, each client has
the head of its response an interval after its request was dispatched, at the latest; and an
interval after each write of its session, or after the head, there is another write, unless its task
is over or its own upstream has left something open. -/
theorem kept_alive (hrun : Transition.run (step srv) (.init now) as = some s)
    (hprompt : Transition.AllSteps (step srv) SessionsPrompt (.init now) as)
    (hses : s.sessions[j]? = some ses) :
    (∃ h : History srv now as j ses, ses.state.connected = true → ses.state.reply = none →
      s.now.nanos ≤ h.before.now.nanos + srv.cfg.heartbeatInterval.nanos) ∧
    ∀ p a q s₁ ses₁, as = p ++ .session j a :: q →
      Transition.run (step srv) (.init now) p = some s₁ → s₁.sessions[j]? = some ses₁ →
      Sse.Begins ses₁.state a → .session j .sent ∉ q →
      ses.state.task.Over ∨ (∃ frame next, ses.state.task = .writing frame next) ∨
        ¬Sse.Settled (Sse.yielded (own j as)).flatten ∨
        s.now.nanos ≤ s₁.now.nanos + srv.cfg.heartbeatInterval.nanos := by
  obtain ⟨h, hshare, hown, hpost⟩ := exists_history hrun hses
  have hclock := (attached_run hrun).clock j ses hses
  refine ⟨⟨h, fun hconn hreply ↦ ?_⟩, fun p a q s₁ ses₁ has hp hses₁ hbegins hq ↦ ?_⟩
  · -- the run of the session, from its beginning
    have hafter : Transition.run (step srv) (.init now) (h.pre ++ [.dispatch h.i h.req]) =
        some h.after := Transition.run_concat.2 ⟨h.before, h.run_pre, h.step_dispatch⟩
    have hrest : Transition.AllSteps (step srv) SessionsPrompt h.after h.post :=
      Transition.AllSteps.of_append (by simpa [h.as_eq] using hprompt) hafter
    have hawaits := Sse.awaits_run h.begun (prompt_shares hrest hpost h.sessions_after) hshare
      hconn hreply
    rw [← hclock]
    exact hawaits.1
  · -- the run of the session, from the moment on when the silence begins
    have hwatched := Sse.watched_run h.begun hshare
    rw [← yielded_filter, hown] at hwatched
    have hnow := (attached_run hp).clock j ses₁ hses₁
    rw [has, Transition.run_append, hp, Option.bind_some] at hrun
    obtain ⟨s₂, hstep, hrest⟩ := Option.bind_eq_some_iff.1 hrun
    have hprompt₁ := Transition.AllSteps.of_append (has ▸ hprompt) hp
    have hprompt₂ := (Transition.allSteps_cons.1 hprompt₁).2 s₂ hstep
    obtain ⟨ses₂, hses₂, hkind, hbegun⟩ := session_step hstep hses₁
    have hlull := hbegun.lull_of_begins hbegins
    rw [← hkind] at hlull
    rw [← hclock, ← hnow]
    refine (lull_shares hprompt₂ hrest hq hses₂ hses hlull).cases.imp_right
      (Or.imp_right (Or.imp_left ?_))
    rintro ⟨l, hl, hopen⟩
    exact (hwatched l hl).not_settled hopen

end

/-- Two clients ask for a stream and one hangs up. The upstream of the other answers after the first
heartbeat, sends an event and falls silent. -/
def steadyClient : List Action := [
  .accept, .receive 0, .dispatch 0 streamRequest, .accept, .receive 1, .dispatch 1 streamRequest,
  .clock (Sse.second 30), .hangUp 1, .clock (Sse.second 60), .session 0 .timer, .session 0 .start,
  .clock (Sse.second 120), .session 0 .timer, .session 0 .sent, .session 0 .rearm,
  .session 0 (.upstream (.ok Sse.eventStream)),
  .session 0 (.item (.chunk (utf8 "data: a\n\n".toList))), .session 0 .sent, .session 0 .rearm,
  .clock (Sse.second 180)]

theorem steadyClient_spec :
    ∃ s₁ s ses₁ ses l,
      Transition.run (step .reference) (.init (Sse.second 0)) (steadyClient.take 17) = some s₁ ∧
      Transition.run (step .reference) (.init (Sse.second 0)) steadyClient = some s ∧
      Transition.AllSteps (step .reference) SessionsPrompt (.init (Sse.second 0)) steadyClient ∧
      s₁.sessions[0]? = some ses₁ ∧ s.sessions[0]? = some ses ∧
      ses.state.task = .looping l :=
  ⟨_, _, _, _, _, rfl, rfl, by decide +kernel, rfl, rfl, rfl⟩

/-- The next heartbeat of the other one is due an interval after its event. -/
theorem kept_alive_steady :
    ∃ s₁ s,
      Transition.run (step .reference) (.init (Sse.second 0)) (steadyClient.take 17) = some s₁ ∧
      Transition.run (step .reference) (.init (Sse.second 0)) steadyClient = some s ∧
      s.now.nanos ≤ s₁.now.nanos + Setup.reference.cfg.heartbeatInterval.nanos := by
  obtain ⟨s₁, s, ses₁, ses, l, hp, hrun, hprompt, hses₁, hses, htask⟩ := steadyClient_spec
  refine ⟨s₁, s, hp, hrun, ?_⟩
  have hcases := (kept_alive hrun hprompt hses).2 (steadyClient.take 17) .sent
    [.session 0 .rearm, .clock (Sse.second 180)] s₁ ses₁ rfl hp hses₁ trivial (by simp)
  have hsettled : Sse.Settled (Sse.yielded (own 0 steadyClient)).flatten := by decide +kernel
  simpa [htask, Sse.Task.Over, hsettled] using hcases


end KeepSse.Server
