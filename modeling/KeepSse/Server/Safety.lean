import KeepSse.Safety
import KeepSse.Server.Shutdown

/-!
# What many clients cannot do

The limits of a single request are those of `Safety`. Here are those of a server as a whole. What is
buffered is bounded by the number of connections that are open at the moment, not by the number of
requests that have ever been made or of tasks that still run for clients who have gone
(`buffered_le`). And if no request can panic the gateway then neither can many (`no_panic`).

## What each result rests on

* `buffered_le` charges every session to a place. A session with frames in its channel has a client
  who is there (`Sse.Sound.gone`) and has not ended, so that a connection is kept for it
  (`Attended`); and one connection is kept for one session. That sixteen for each place bound the
  sum is a fact about pools (`Transition.sum_le_of_places`).
* `no_panic` takes the two halves of `never_panics` apart. A handler does not panic on a request
  that is dispatched (`serve_ne_panicked`), whatever the sessions do; and a task does not panic in
  its own run (`Sse.ne_panicked_run`), which has no other clock than that of the server
  (`clock_mem`, `now_resets`).

The hypotheses of `no_panic` are those of `never_panics`, for every request that is dispatched and
every moment to which the clock goes on. The first result has none: it holds of every run.
-/

namespace KeepSse.Server

open Text Http

/-! ### Memory -/

/-- The session that makes the response on a connection. -/
def Conn.session? : Conn → Option ℕ
  | .streaming j => some j
  | _ => none

section

variable {srv : Setup} {now : Instant} {s s' : State} {as : List Action} {j : ℕ} {ses : Session}

/-- A session with frames in its channel is one that a connection is kept for. -/
theorem mem_places (hrun : Transition.run (step srv) (.init now) as = some s)
    (hses : s.sessions[j]? = some ses) (hqueue : ses.state.queue ≠ []) :
    j ∈ s.conns.filterMap Conn.session? := by
  obtain ⟨h, hshare, -, -⟩ := exists_history hrun hses
  have hconn : ses.state.connected = true := by
    by_contra hgone
    exact hqueue ((Sse.sound_run h.begun hshare).gone (Bool.eq_false_iff.2 hgone))
  rcases attended_run hrun j ses hses hconn with hended | ⟨i, hi⟩
  · exact absurd (Session.ended_iff.1 hended).2 hqueue
  · exact List.mem_filterMap.2 ⟨_, List.mem_of_getElem? hi, rfl⟩

/-- **What is buffered is bounded by the open connections.** All the channels together hold no more
than sixteen frames for each connection that a stream is sent on. -/
theorem buffered_le (hrun : Transition.run (step srv) (.init now) as = some s) :
    (s.sessions.map fun ses ↦ ses.state.queue.length).sum ≤
      Sse.capacity * (s.conns.filterMap Conn.session?).length := by
  refine Transition.sum_le_of_places (fun ses hses ↦ ?_) fun j ses hses hqueue ↦ ?_
  · obtain ⟨j, hj⟩ := List.mem_iff_getElem?.1 hses
    obtain ⟨h, hshare, -, -⟩ := exists_history hrun hj
    exact (Sse.sound_run h.begun hshare).room
  · exact mem_places hrun hses fun hnil ↦ hqueue (by rw [hnil]; rfl)

end

/-- Of two clients one has left. -/
theorem buffered_le_twoClients :
    ∃ s, Transition.run (step .reference) (.init (Sse.second 0)) twoClients = some s ∧
      (s.sessions.map fun ses ↦ ses.state.queue.length).sum ≤ 16 := by
  obtain ⟨s, ses, hrun, -⟩ := twoClients_spec
  have hone : (s.conns.filterMap Conn.session?).length = 1 := by
    rw [← Option.some.inj (Eq.trans rfl hrun)]
    rfl
  have hbuffered := buffered_le hrun
  rw [hone] at hbuffered
  exact ⟨s, hrun, hbuffered⟩

/-! ### Panics -/

section

variable {srv : Setup} {now : Instant} {s s' : State} {as : List Action} {j : ℕ}

/-- A handler does not panic. -/
theorem serve_ne_panicked {config : Config} {req : Request Incoming}
    (hcfg : ResolvedConfig.parse srv.crates config = .ok srv.cfg)
    (hlimit : srv.profile = .release ∨ srv.cfg.maxProbeBody.toNat ≠ 2 ^ 64 - 1)
    (htarget : srv.crates.parsePathAndQuery (requestTarget req.parts).text =
      some (requestTarget req.parts)) :
    serve srv now req ≠ .panicked := by
  obtain ⟨exit, hexit, hkeeps⟩ : ∃ exit,
      handle srv.profile srv.crates srv.cfg req = some exit ∧ exit.Keeps req := exists_exit hlimit
  obtain ⟨reqs, hreqs⟩ : ∃ reqs,
      exit.requests srv.profile srv.crates srv.cfg now = some reqs :=
    exists_requests hcfg htarget hkeeps now
  unfold serve
  rw [hexit]
  cases exit with
  | handleStream kind parts body =>
    obtain ⟨s₀, h₀, -⟩ := Option.map_eq_some_iff.1 hreqs
    simp only [Setup.gateway, h₀]
    exact Served.noConfusion
  | _ =>
    simp only [hreqs]
    exact Served.noConfusion

/-- A session has the clock of the server. -/
theorem clock_mem {t : Instant} (hrun : Transition.run (step srv) s as = some s')
    (ht : .clock t ∈ Transition.shares (step srv) (effect srv) j s as) : .clock t ∈ as := by
  induction as generalizing s with
  | nil => cases ht
  | cons a as ih =>
    obtain ⟨s₁, hstep, hrest⟩ := Option.bind_eq_some_iff.1 hrun
    rw [Transition.shares, hstep] at ht
    rcases List.mem_append.1 ht with ht | ht
    · obtain ⟨-, s₂, sessions, hcontrol, -, -⟩ := step_cases hstep
      rcases share_cases hcontrol (Option.mem_toList.1 ht) with ⟨t', rfl, heq⟩ | ⟨i, -, -, heq⟩ |
        ⟨-, hshared⟩
      · rw [Sse.Action.clock.inj heq]
        exact List.mem_cons_self
      · cases heq
      · cases hshared
    · exact List.mem_cons_of_mem _ (ih hrest ht)

theorem now_resets {d : Duration} (hrun : Transition.run (step srv) (.init now) as = some s)
    (hnow : now.Resets d) (hclock : ∀ t, .clock t ∈ as → t.Resets d) : s.now.Resets d := by
  revert hclock
  refine Transition.run_induction
    (P := fun as s ↦ (∀ t, .clock t ∈ as → t.Resets d) → s.now.Resets d) (fun _ ↦ hnow) ?_ hrun
  intro as a s s' _ ih hstep hclock
  obtain ⟨-, s₁, sessions, hcontrol, -, rfl⟩ := step_cases hstep
  cases hcontrol with
  | @clock t hle => exact hclock t (List.mem_append_right _ (List.mem_singleton_self _))
  | _ => exact ih fun t ht ↦ hclock t (List.mem_append_left _ ht)

/-- **No number of requests panics the gateway.** On an accepted configuration, and unless a debug
build is configured with the largest limit of all, no handler panics on a request that is dispatched
and no task panics, in any run of the server in which the clock is in range for the interval. -/
theorem no_panic {config : Config}
    (hcfg : ResolvedConfig.parse srv.crates config = .ok srv.cfg)
    (hlimit : srv.profile = .release ∨ srv.cfg.maxProbeBody.toNat ≠ 2 ^ 64 - 1)
    (hnow : now.Resets srv.cfg.heartbeatInterval)
    (hclock : ∀ t, .clock t ∈ as → t.Resets srv.cfg.heartbeatInterval)
    (htarget : ∀ i req, .dispatch i req ∈ as →
      srv.crates.parsePathAndQuery (requestTarget req.parts).text =
        some (requestTarget req.parts))
    (hrun : Transition.run (step srv) (.init now) as = some s) :
    (∀ pre i req post s₁, as = pre ++ .dispatch i req :: post →
      Transition.run (step srv) (.init now) pre = some s₁ → serve srv s₁.now req ≠ .panicked) ∧
      ∀ (j : ℕ) (ses : Session), s.sessions[j]? = some ses → ses.state.task ≠ .panicked := by
  refine ⟨fun pre i req post s₁ has _ ↦ ?_, fun j ses hses ↦ ?_⟩
  · exact serve_ne_panicked hcfg hlimit (htarget i req (by simp [has]))
  obtain ⟨h, hshare, -, hpost⟩ := exists_history hrun hses
  have has := h.as_eq
  have hbefore := now_resets h.run_pre hnow fun t ht ↦ hclock t (by simp [has, ht])
  refine Sse.ne_panicked_run h.begun hbefore (fun t ht ↦ hclock t ?_) hshare
  rw [has]
  exact List.mem_append_right _ (List.mem_cons_of_mem _ (clock_mem hpost ht))

end

/-- Two clients on the default configuration. -/
theorem no_panic_twoClients :
    ∃ s, Transition.run (step .reference) (.init (Sse.second 0)) twoClients = some s ∧
      ∀ (j : ℕ) (ses : Session), s.sessions[j]? = some ses → ses.state.task ≠ .panicked := by
  obtain ⟨s, ses, hrun, -⟩ := twoClients_spec
  refine ⟨s, hrun, (@no_panic .reference (Sse.second 0) s twoClients .reference
    ResolvedConfig.parse_reference (.inl rfl) (by decide) (fun t ht ↦ ?_) (fun i req hreq ↦ ?_)
    hrun).2⟩
  · obtain rfl : t = Sse.second 1 := by simpa [twoClients] using ht
    decide
  · obtain ⟨-, rfl⟩ | ⟨-, rfl⟩ : i = 0 ∧ req = streamRequest ∨ i = 1 ∧ req = streamRequest := by
      simpa [twoClients] using hreq
    · rfl
    · rfl

end KeepSse.Server
