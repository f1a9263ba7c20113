import KeepSse.Server.Run

/-!
# Clients do not disturb each other

A server is many sessions at once, and a client knows of none but its own. Every session has a
history in the run of the server (`History`): the request that started it, and from there on the
part that the session had in what happened. That part is a run of the machine of `Sse.Task`, so
every result about a single session is one about each session of a server, whatever the others do
(`exists_history`, `isolated`).

What a session shares with the server is the clock and its client's leaving. The rest of its run are
its own actions in the run of the server (`own`), and they alone decide which course it takes.

## What `isolated` rests on

* That the server keeps a pool (`keeps`) is what makes the part of a session in a run a run of its
  own: the rule is general (`Transition.Keeps.run_member`), and it knows nothing of the gateway.
* `filter_shares` reads that part off the actions of the server, up to the shared ones; and these
  leave the course as it is (`course_filter`), because a course is what the upstream has done.
* That at most one connection serves a session is an invariant of the connections (`Attached`). It
  has the clock in it as well: a session stands on the clock of the server, from the moment of its
  start.

The invariants here and in the modules on the server are about one step of the control part
(`Control`) and one of the pool, which are inverted apart (`step_cases`, `session_cases`).
-/

namespace KeepSse.Server

open Text Http

/-! ### Sessions run by themselves -/

section

variable {srv : Setup} {ses : Session} {bs : List Sse.Action}

/-- A session runs as its state does. -/
theorem run_session : Transition.run (Session.step srv) ses bs =
    (Transition.run (Sse.step (srv.gateway ses.kind)) ses.state bs).map
      fun s ↦ { ses with state := s } := by
  induction bs generalizing ses with
  | nil => rfl
  | cons b bs ih =>
    rw [Transition.run, Transition.run, Session.step]
    cases Sse.step (srv.gateway ses.kind) ses.state b with
    | none => rfl
    | some s => exact ih

theorem allSteps_session {C : Sse.State → Sse.Action → Prop}
    (h : Transition.AllSteps (Session.step srv) (fun ses b ↦ C ses.state b) ses bs) :
    Transition.AllSteps (Sse.step (srv.gateway ses.kind)) C ses.state bs := by
  intro pre b post s hbs hrun
  refine h pre b post { ses with state := s } hbs ?_
  rw [run_session, hrun]
  rfl

end

/-- What happens in a session, apart from what it shares with the server. -/
def own (j : ℕ) : List Action → List Sse.Action :=
  List.filterMap fun
    | .session k a => if k = j then some a else none
    | _ => none

section

variable {srv : Setup} {s s' : State} {a : Action} {as : List Action} {j : ℕ}

/-- The share of a session in a step is what it does there itself, up to the shared actions. -/
theorem filter_share (h : step srv s a = some s') :
    ((effect srv s a).share j).toList.filter (fun b ↦ !Shared b) = own j [a] := by
  obtain ⟨-, s₁, sessions, hcontrol, -, -⟩ := step_cases h
  cases hcontrol with
  | clock hle => rfl
  | @dispatch i req hconn =>
    simp only [effect]
    split <;> rfl
  | @session k b hshared =>
    simp only [effect, Transition.PoolAction.share, own, List.filterMap_cons, List.filterMap_nil]
    by_cases hkj : k = j
    · simp [hkj, hshared]
    · simp [hkj]
  | @hangUp i c hconn hopen =>
    simp only [effect]
    split
    · next k hk =>
      simp only [Transition.PoolAction.share]
      split_ifs <;> rfl
    · rfl
  | _ => rfl

theorem filter_shares (hrun : Transition.run (step srv) s as = some s') :
    (Transition.shares (step srv) (effect srv) j s as).filter (fun b ↦ !Shared b) = own j as := by
  induction as generalizing s with
  | nil => rfl
  | cons a as ih =>
    obtain ⟨s₁, hstep, hrest⟩ := Option.bind_eq_some_iff.1 hrun
    have hcons : own j (a :: as) = own j [a] ++ own j as := List.filterMap_append (l := [a])
    rw [Transition.shares, hstep, List.filter_append, filter_share hstep, ih hrest, hcons]

/-- Nothing happens in a session before it is started. -/
theorem own_eq_nil (hrun : Transition.run (step srv) s as = some s')
    (hj : s'.sessions.length ≤ j) : own j as = [] := by
  revert hj
  refine Transition.run_induction (P := fun as s' ↦ s'.sessions.length ≤ j → own j as = [])
    (fun _ ↦ rfl) ?_ hrun
  intro as a s₁ s₂ _ ih hstep hj
  have hpool := keeps srv s₁ a s₂ hstep
  have hlength : s₁.sessions.length ≤ s₂.sessions.length := by
    rcases Transition.poolStep_length hpool with hsame | ⟨ses, -, hsessions⟩
    · exact Nat.le_of_eq hsame.symm
    · simp [hsessions]
  have hconcat : own j (as ++ [a]) = own j as ++ own j [a] := List.filterMap_append
  rw [hconcat, ih (Nat.le_trans hlength hj), List.nil_append]
  cases a with
  | session k b =>
    rw [own, List.filterMap_cons, List.filterMap_nil]
    have hkj : k ≠ j := by
      rintro rfl
      simp only [effect, Transition.poolStep, Option.bind_eq_bind, Option.bind_eq_some_iff] at hpool
      obtain ⟨ses, hses, -⟩ := hpool
      have := (List.getElem?_eq_some_iff.1 hses).1
      omega
    simp [hkj]
  | _ => rfl

end

/-! ### The history of a session -/

/-- How a session has come to where it is: the request that started it, and the run of its own that
it has made since. -/
structure History (srv : Setup) (now : Instant) (as : List Action) (j : ℕ) (ses : Session) where
  pre : List Action
  i : ℕ
  req : Request Incoming
  post : List Action
  /-- The server before the request was dispatched, and after it. -/
  before : State
  after : State
  parts : Parts
  body : Bytes
  first : Sse.State
  as_eq : as = pre ++ .dispatch i req :: post
  run_pre : Transition.run (step srv) (.init now) pre = some before
  step_dispatch : step srv before (.dispatch i req) = some after
  handled : handle srv.profile srv.crates srv.cfg req = some (.handleStream ses.kind parts body)
  begun : Sse.handleStream (srv.gateway ses.kind) parts body before.now = some first
  sessions_after : after.sessions[j]? = some ⟨ses.kind, first⟩

/-- What the session has done in that time. -/
def History.actions {srv : Setup} {now : Instant} {as : List Action} {j : ℕ} {ses : Session}
    (h : History srv now as j ses) : List Sse.Action :=
  Transition.shares (step srv) (effect srv) j h.after h.post

section

variable {srv : Setup} {now : Instant} {s : State} {as : List Action} {j : ℕ} {ses : Session}

/-- What starts a session is a request of the SSE path. -/
theorem serve_streaming {req : Request Incoming} (h : serve srv now req = .streaming ses) :
    ∃ parts body, handle srv.profile srv.crates srv.cfg req =
        some (.handleStream ses.kind parts body) ∧
      Sse.handleStream (srv.gateway ses.kind) parts body now = some ses.state := by
  unfold serve at h
  split at h
  · cases h
  · next kind parts body hhandle =>
    split at h
    · next s hs =>
      obtain rfl := Served.streaming.inj h
      exact ⟨parts, body, hhandle, hs⟩
    · cases h
  · split at h <;> cases h

/-- Only a dispatched request starts a session. -/
theorem effect_new {a : Action} (h : effect srv s a = .new ses) :
    ∃ i req, a = .dispatch i req ∧ serve srv s.now req = .streaming ses := by
  cases a with
  | dispatch i req =>
    simp only [effect] at h
    split at h
    · next ses' hserve =>
      obtain rfl := Transition.PoolAction.new.inj h
      exact ⟨i, req, rfl, hserve⟩
    · cases h
  | hangUp i =>
    simp only [effect] at h
    split at h <;> cases h
  | _ => cases h

/-- **Every session has a history**, and has made the run of it. -/
theorem exists_history (hrun : Transition.run (step srv) (.init now) as = some s)
    (hses : s.sessions[j]? = some ses) :
    ∃ h : History srv now as j ses,
      Transition.run (Sse.step (srv.gateway ses.kind)) h.first h.actions = some ses.state ∧
      h.actions.filter (fun b ↦ !Shared b) = own j as ∧
      Transition.run (step srv) h.after h.post = some s := by
  have hj := (List.getElem?_eq_some_iff.1 hses).1
  obtain ⟨pre, a, post, s₁, s₂, ses₀, rfl, hpre, hstep, heffect, hlength, hpost, hses₀⟩ :=
    (keeps srv).exists_new hrun rfl hj
  obtain ⟨i, req, rfl, hserve⟩ := effect_new heffect
  obtain ⟨parts, body, hhandle, hbegun⟩ := serve_streaming hserve
  obtain ⟨ses', hses', hshare⟩ := (keeps srv).run_member hpost hses₀
  obtain rfl := Option.some.inj (hses'.symm.trans hses)
  rw [run_session, Option.map_eq_some_iff] at hshare
  obtain ⟨st, hst, rfl⟩ := hshare
  refine ⟨⟨pre, i, req, post, s₁, s₂, parts, body, ses₀.state, rfl, hpre, hstep, hhandle, hbegun,
    hses₀⟩, hst, ?_, hpost⟩
  have happend : own j (pre ++ .dispatch i req :: post) = own j pre ++ own j post := by
    simp [own]
  rw [happend, own_eq_nil hpre (Nat.le_of_eq hlength), List.nil_append]
  exact filter_shares hpost

end

/-! ### Connections and their sessions -/

/-- What a session shares with the server leaves its course as it is. -/
theorem course_filter (g : Sse.Gateway) (bs : List Sse.Action) :
    Sse.Course.of g (bs.filter fun b ↦ !Shared b) = Sse.Course.of g bs := by
  have hfold (c : Sse.Course) : (bs.filter fun b ↦ !Shared b).foldl (Sse.Course.next g) c =
      bs.foldl (Sse.Course.next g) c := by
    induction bs generalizing c with
    | nil => rfl
    | cons b bs ih =>
      cases hb : Shared b with
      | false =>
        rw [List.filter_cons_of_pos (by simp [hb]), List.foldl_cons, List.foldl_cons, ih]
      | true =>
        have hinert : b.Inert := by
          cases b with
          | clock t => trivial
          | disconnect => trivial
          | _ => cases hb
        rw [List.filter_cons_of_neg (by simp [hb]), List.foldl_cons,
          Sse.Course.next_of_inert c b hinert, ih]
  exact hfold .pending

theorem yielded_filter (bs : List Sse.Action) :
    Sse.yielded (bs.filter fun b ↦ !Shared b) = Sse.yielded bs := by
  rw [Sse.yielded, Sse.yielded, List.filterMap_filter]
  refine List.filterMap_congr fun b _ ↦ ?_
  cases b <;> rfl

section

variable {g : Sse.Gateway} {st st' : Sse.State} {b : Sse.Action}

theorem now_of_clock {t : Instant} (h : Sse.Step g st (.clock t) st') : st'.now = t := by
  cases h
  rfl

theorem now_of_step (h : Sse.Step g st b st') (hb : ∀ t, b ≠ .clock t) : st'.now = st.now := by
  cases h with
  | clock hle => exact absurd rfl (hb _)
  | _ => rfl

theorem connected_of_step (h : Sse.Step g st b st') (hb : b ≠ .disconnect) :
    st'.connected = st.connected := by
  cases h with
  | disconnect hconn => exact absurd rfl hb
  | _ => rfl

end

section

variable {srv : Setup} {s s' s₁ : State} {a : Action} {i j k : ℕ} {b : Sse.Action} {ses' : Session}

/-- The part of a session in a step: the clock, its client hanging up, or its own. -/
theorem share_cases (h : Control srv s a s₁) (hb : (effect srv s a).share k = some b) :
    (∃ t, a = .clock t ∧ b = .clock t) ∨
      (∃ i, a = .hangUp i ∧ s.conns[i]? = some (.streaming k) ∧ b = .disconnect) ∨
      (a = .session k b ∧ Shared b = false) := by
  cases h with
  | @clock t hle => exact .inl ⟨t, rfl, (Option.some.inj hb).symm⟩
  | @session k' b' hshared =>
    simp only [effect, Transition.PoolAction.share, Option.ite_none_right_eq_some,
      Option.some.injEq] at hb
    obtain ⟨rfl, rfl⟩ := hb
    exact .inr (.inr ⟨rfl, hshared⟩)
  | @hangUp i c hconn hopen =>
    simp only [effect] at hb
    split at hb
    · next j' hj' =>
      simp only [Transition.PoolAction.share, Option.ite_none_right_eq_some,
        Option.some.injEq] at hb
      obtain ⟨rfl, rfl⟩ := hb
      exact .inr (.inl ⟨i, rfl, hj', rfl⟩)
    · cases hb
  | @dispatch i req hconn =>
    simp only [effect] at hb
    split at hb <;> cases hb
  | _ => cases hb

/-- Where a session comes from, in one step of the server. -/
theorem session_cases (h : step srv s a = some s') (hses' : s'.sessions[k]? = some ses') :
    (∃ ses, s.sessions[k]? = some ses ∧ ses'.kind = ses.kind ∧
      ((effect srv s a).share k = none ∧ ses' = ses ∨
        ∃ b, (effect srv s a).share k = some b ∧
          Sse.Step (srv.gateway ses.kind) ses.state b ses'.state)) ∨
      (effect srv s a = .new ses' ∧ k = s.sessions.length) := by
  rcases Transition.poolStep_cases (keeps srv s a s' h) hses' with ⟨ses, hses, hrun⟩ | hnew
  · refine .inl ⟨ses, hses, ?_⟩
    rw [run_session, Option.map_eq_some_iff] at hrun
    obtain ⟨st, hst, rfl⟩ := hrun
    cases hshare : (effect srv s a).share k with
    | none =>
      rw [hshare] at hst
      obtain rfl := Option.some.inj hst
      exact ⟨rfl, .inl ⟨rfl, rfl⟩⟩
    | some b =>
      rw [hshare] at hst
      refine ⟨rfl, .inr ⟨b, rfl, Sse.Step.of_step ?_⟩⟩
      simpa [Transition.run] using hst
  · exact .inr hnew

/-- A connection that streams after a step did so before, and was not hung up; or its request has
just been dispatched. -/
theorem Control.streaming_cases (h : Control srv s a s₁)
    (hk : s₁.conns[k]? = some (.streaming j)) :
    (s.conns[k]? = some (.streaming j) ∧ a ≠ .hangUp k) ∨
      ∃ req ses, a = .dispatch k req ∧ serve srv s.now req = .streaming ses ∧
        j = s.sessions.length := by
  -- the connections that a step does not set are as before
  have hset {i : ℕ} {c : Conn} (hc : c ≠ .streaming j)
      (hk : (s.conns.set i c)[k]? = some (.streaming j)) :
      s.conns[k]? = some (.streaming j) ∧ i ≠ k := by
    rw [List.getElem?_set] at hk
    split_ifs at hk with hik hlt
    · exact absurd (Option.some.inj hk) hc
    · exact ⟨hk, hik⟩
  cases h with
  | accept hphase =>
    refine .inl ⟨?_, Action.noConfusion⟩
    rw [List.getElem?_append] at hk
    split_ifs at hk with hlt
    · exact hk
    · rw [List.getElem?_singleton] at hk
      split_ifs at hk
      cases Option.some.inj hk
  | receive hconn => exact .inl ⟨(hset Conn.noConfusion hk).1, Action.noConfusion⟩
  | answered hconn => exact .inl ⟨(hset Conn.noConfusion hk).1, Action.noConfusion⟩
  | streamed hconn hses hended => exact .inl ⟨(hset Conn.noConfusion hk).1, Action.noConfusion⟩
  | shed hphase hconn => exact .inl ⟨(hset Conn.noConfusion hk).1, Action.noConfusion⟩
  | @hangUp i c hconn hopen =>
    obtain ⟨hk, hik⟩ := hset Conn.noConfusion hk
    exact .inl ⟨hk, fun h ↦ hik (Action.hangUp.inj h)⟩
  | @dispatch i req hconn =>
    cases hserve : serve srv s.now req with
    | streaming ses =>
      rw [hserve] at hk
      by_cases hj : j = s.sessions.length
      · by_cases hik : i = k
        · subst hik
          exact .inr ⟨req, ses, rfl, hserve, hj⟩
        · rw [List.getElem?_set_ne hik] at hk
          exact .inl ⟨hk, Action.noConfusion⟩
      · exact .inl ⟨(hset (fun h ↦ hj (Conn.streaming.inj h).symm) hk).1, Action.noConfusion⟩
    | panicked =>
      rw [hserve] at hk
      exact .inl ⟨(hset Conn.noConfusion hk).1, Action.noConfusion⟩
    | answering reqs =>
      rw [hserve] at hk
      exact .inl ⟨(hset Conn.noConfusion hk).1, Action.noConfusion⟩
  | _ => exact .inl ⟨hk, Action.noConfusion⟩

end

section

variable {srv : Setup} {s s₁ : State} {a : Action}

theorem Control.now_eq (h : Control srv s a s₁) (ha : ∀ t, a ≠ .clock t) : s₁.now = s.now := by
  cases h with
  | clock hle => exact absurd rfl (ha _)
  | _ => rfl

end

/-- How connections, sessions and the clock hang together. -/
structure Attached (s : State) : Prop where
  /-- A connection that streams has a session, whose client is there. -/
  live : ∀ i j : ℕ, s.conns[i]? = some (.streaming j) →
    ∃ ses, s.sessions[j]? = some ses ∧ ses.state.connected = true
  /-- No two connections have the same session. -/
  unique : ∀ i i' j : ℕ, s.conns[i]? = some (.streaming j) → s.conns[i']? = some (.streaming j) →
    i = i'
  /-- All have the same clock. -/
  clock : ∀ (j : ℕ) (ses : Session), s.sessions[j]? = some ses → ses.state.now = s.now

section

variable {srv : Setup} {s s' : State} {a : Action}

/-- A new session stands on the clock of the server, and its client is there. -/
theorem state_of_serve {now : Instant} {req : Request Incoming} {ses : Session}
    (h : serve srv now req = .streaming ses) :
    ses.state.now = now ∧ ses.state.connected = true := by
  obtain ⟨parts, body, -, hbegun⟩ := serve_streaming h
  obtain ⟨r, -, hs⟩ := Option.bind_eq_some_iff.1 hbegun
  rw [← Option.some.inj hs]
  exact ⟨rfl, rfl⟩

/-- **One step keeps them together.** -/
theorem Attached.step (hs : Attached s) (h : step srv s a = some s') : Attached s' := by
  obtain ⟨-, s₁, sessions, hcontrol, hsessions, rfl⟩ := step_cases h
  -- a connection that keeps streaming has its session beside it
  have hlive {k j : ℕ} (hk : s.conns[k]? = some (.streaming j)) (ha : a ≠ .hangUp k) :
      ∃ ses, sessions[j]? = some ses ∧ ses.state.connected = true := by
    obtain ⟨ses, hses, hconn⟩ := hs.live k j hk
    obtain ⟨ses', hses', -⟩ := Transition.poolStep_member hsessions hses
    refine ⟨ses', hses', ?_⟩
    rcases session_cases h hses' with ⟨ses₁, hses₁, -, hshare⟩ | hnew
    · obtain rfl := Option.some.inj (hses.symm.trans hses₁)
      rcases hshare with ⟨-, rfl⟩ | ⟨b, hb, hstep⟩
      · exact hconn
      · rw [connected_of_step hstep, hconn]
        rcases share_cases hcontrol hb with ⟨t, -, rfl⟩ | ⟨i, rfl, hi, -⟩ | ⟨-, hshared⟩
        · exact Sse.Action.noConfusion
        · exact absurd (congrArg Action.hangUp (hs.unique i k j hi hk)) ha
        · rintro rfl
          cases hshared
    · obtain ⟨i, req, rfl, hserve⟩ := effect_new hnew.1
      exact (state_of_serve hserve).2
  refine ⟨fun k j hk ↦ ?_, fun k k' j hk hk' ↦ ?_, fun j ses' hses' ↦ ?_⟩
  · rcases hcontrol.streaming_cases hk with ⟨hk, ha⟩ | ⟨req, ses, rfl, hserve, rfl⟩
    · exact hlive hk ha
    · refine ⟨ses, ?_, (state_of_serve hserve).2⟩
      have heffect : effect srv s (.dispatch k req) = .new ses := by simp only [effect, hserve]
      rw [heffect] at hsessions
      rw [← Option.some.inj hsessions]
      simp
  · -- the number of a new session is that of no connection
    have hnew {k : ℕ} (hk : s.conns[k]? = some (.streaming s.sessions.length)) : False := by
      obtain ⟨ses, hses, -⟩ := hs.live k _ hk
      exact Nat.lt_irrefl _ (List.getElem?_eq_some_iff.1 hses).1
    rcases hcontrol.streaming_cases hk with ⟨hk, -⟩ | ⟨req, ses, rfl, -, rfl⟩
    · rcases hcontrol.streaming_cases hk' with ⟨hk', -⟩ | ⟨req, ses, rfl, -, rfl⟩
      · exact hs.unique k k' j hk hk'
      · exact (hnew hk).elim
    · rcases hcontrol.streaming_cases hk' with ⟨hk', -⟩ | ⟨req', ses', ha, -, -⟩
      · exact (hnew hk').elim
      · exact (Action.dispatch.inj ha).1
  · show ses'.state.now = s₁.now
    by_cases ha : ∃ t, a = .clock t
    · obtain ⟨t, rfl⟩ := ha
      cases hcontrol
      rcases session_cases h hses' with ⟨ses, hses, -, hshare⟩ | hnew
      · rcases hshare with ⟨hnone, -⟩ | ⟨b, hb, hstep⟩
        · cases hnone
        · obtain rfl := Option.some.inj hb
          exact now_of_clock hstep
      · cases hnew.1
    · rw [not_exists] at ha
      rw [hcontrol.now_eq ha]
      rcases session_cases h hses' with ⟨ses, hses, -, hshare⟩ | hnew
      · rcases hshare with ⟨-, rfl⟩ | ⟨b, hb, hstep⟩
        · exact hs.clock j ses' hses
        · rw [now_of_step hstep, hs.clock j ses hses]
          rintro t rfl
          rcases share_cases hcontrol hb with ⟨t', rfl, -⟩ | ⟨i, -, -, hb⟩ | ⟨-, hshared⟩
          · exact ha t' rfl
          · cases hb
          · cases hshared
      · obtain ⟨i, req, rfl, hserve⟩ := effect_new hnew.1
        exact (state_of_serve hserve).1

end

theorem attached_run {srv : Setup} {now : Instant} {s : State} {as : List Action}
    (hrun : Transition.run (step srv) (.init now) as = some s) : Attached s := by
  refine Transition.run_induction (P := fun _ s ↦ Attached s) ?_
    (fun _ _ _ _ _ ih hstep ↦ ih.step hstep) hrun
  exact ⟨fun i j h ↦ by simp [State.init] at h, fun i i' j h ↦ by simp [State.init] at h,
    fun j ses h ↦ by simp [State.init] at h⟩

/-! ### Isolation -/

/-- **Clients do not disturb each other.** Whatever happens on the other connections, a session has
made a run of its own, from the request that started it; up to the clock and its client's leaving,
that run is made of the session's own actions, each once and in their order. So the course is that
of its own upstream, the answer and the frames are those of the course, and they go to one
client. -/
theorem isolated {srv : Setup} {now : Instant} {s : State} {as : List Action} {j : ℕ}
    {ses : Session} (hrun : Transition.run (step srv) (.init now) as = some s)
    (hses : s.sessions[j]? = some ses) :
    (∃ h : History srv now as j ses,
      Transition.run (Sse.step (srv.gateway ses.kind)) h.first h.actions = some ses.state ∧
      h.actions.filter (fun b ↦ !Shared b) = own j as) ∧
    (ses.state.connected = true → (Sse.Course.of (srv.gateway ses.kind) (own j as)).Word
      (srv.gateway ses.kind) (ses.state.received ++ ses.state.queue ++ ses.state.task.owed)) ∧
    (∃ w, (Sse.Course.of (srv.gateway ses.kind) (own j as)).Word (srv.gateway ses.kind) w ∧
      ses.state.received ++ ses.state.queue <+: w) ∧
    (Sse.Course.of (srv.gateway ses.kind) (own j as)).Answer (srv.gateway ses.kind)
      ses.state.reply ∧
    ∀ i i' : ℕ, s.conns[i]? = some (.streaming j) → s.conns[i']? = some (.streaming j) →
      i = i' ∧ ses.state.connected = true := by
  obtain ⟨h, hshare, hown, -⟩ := exists_history hrun hses
  have hrefines := Sse.refines_run h.begun hshare
  rw [← course_filter, hown] at hrefines
  refine ⟨⟨h, hshare, hown⟩, hrefines.word, hrefines.sent, hrefines.answer, fun i i' hi hi' ↦ ?_⟩
  have hattached := attached_run hrun
  obtain ⟨ses', hses', hconn⟩ := hattached.live i j hi
  obtain rfl := Option.some.inj (hses'.symm.trans hses)
  exact ⟨hattached.unique i i' j hi hi', hconn⟩

/-- The server with the default configuration. -/
def Setup.reference : Setup :=
  ⟨.reference, .release, .reference⟩

/-- Two clients ask for a stream, and the second one hangs up. -/
def twoClients : List Action := [
  .accept, .receive 0, .dispatch 0 streamRequest, .accept, .receive 1, .dispatch 1 streamRequest,
  .session 0 (.upstream (.ok Sse.eventStream)), .session 0 .start,
  .session 1 (.upstream (.ok Sse.eventStream)), .session 1 .start,
  .session 0 (.item (.chunk (utf8 "data: a\n\n".toList))), .hangUp 1,
  .clock (Sse.second 1), .session 0 .sent]

theorem twoClients_spec :
    ∃ s ses, Transition.run (step .reference) (.init (Sse.second 0)) twoClients = some s ∧
      s.sessions[0]? = some ses ∧ ses.state.connected = true ∧
      ses.state.queue = [utf8 "data: a\n\n".toList] :=
  ⟨_, _, rfl, rfl, rfl, rfl⟩

/-- The first one gets its event. -/
theorem isolated_twoClients :
    ∃ s ses, Transition.run (step .reference) (.init (Sse.second 0)) twoClients = some s ∧
      s.sessions[0]? = some ses ∧
      (Sse.Course.of (Setup.reference.gateway ses.kind) (own 0 twoClients)).Word
        (Setup.reference.gateway ses.kind)
        (ses.state.received ++ ses.state.queue ++ ses.state.task.owed) := by
  obtain ⟨s, ses, hrun, hses, hconn, -⟩ := twoClients_spec
  exact ⟨s, ses, hrun, hses, (isolated hrun hses).2.1 hconn⟩


end KeepSse.Server
