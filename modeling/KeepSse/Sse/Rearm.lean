import KeepSse.Sse.Refinement

/-!
# Re-arming the timer

The three loops share one timer and re-arm it by an addition, `Instant::now() + interval`, which
panics when the sum is out of range; and tokio panics on a sum that it cannot round up to a whole
millisecond. The timer is started by a `sleep`, which puts a deadline far in the future where the
sum is out of range. So re-arming is a fresh `sleep` precisely where the sum and its rounding are in
range, and a panic elsewhere (`rearms_iff`).

## What it rests on

* Nothing else in the task panics (`Step.ne_panicked`): a tracker consumes every chunk, whatever its
  state, and the limit on error bodies is far from the top of `usize` (`errorBody_isSome`).
* Where the timer can be reset, re-arming is the `sleep` of that moment (`Step.rearm_fresh`), and
  where a step of re-arming does not panic, the timer could be reset (`Step.resets_of_rearm`). The
  two are about one step. Both directions over a run are read off its steps, with no invariant: what
  is owed is owed at each re-arming, with the clock of that moment (`Rearms`).
* In terms of the clock alone, it is enough that the deadlines are in range from where it starts and
  from every reading that it takes (`resets_of_clock`).

The condition is not one on the configuration: an interval is accepted up to 2^64-1 seconds, and
with the longest one the task panics after its first write (`longest_not_rearms`).
-/

namespace KeepSse.Sse

open Text Http EventStream

/-! ### Nothing else panics -/

section

variable {g : Gateway}

/-- There is an error body to report, whatever its coding. -/
theorem errorBody_isSome (g : Gateway) (ce : Option Coding) (body : Incoming) :
    (errorBody g ce body).isSome = true := by
  have hmax : maxErrorBody.toNat ≠ 2 ^ 64 - 1 := by decide
  unfold errorBody
  simp only
  split
  · rfl
  · rfl
  · rw [Option.isSome_map]
    exact decodeBytes_isSome _ _ _ (.inr hmax)

/-- A task that has left a loop has something to write, is about to re-arm the timer, or is
over. -/
def Task.Acts : Task → Prop
  | .writing _ _ => True
  | .rearming _ => True
  | .finished => True
  | _ => False

theorem Task.Acts.ne_panicked {t : Task} (h : t.Acts) : t ≠ .panicked := by
  rintro rfl
  exact h

theorem onHeartbeat_acts (l : Loop) : l.onHeartbeat.Acts := by
  unfold Loop.onHeartbeat
  split
  · split_ifs <;> trivial
  · trivial

theorem announce_acts (tracker : EventBoundaryTracker) (ev : Bytes) :
    (announce tracker ev).Acts := by
  rcases announce_cases tracker ev with ⟨-, heq⟩ | heq
  · rw [heq]
    trivial
  · rw [heq]
    trivial

theorem onItem_acts (g : Gateway) (tracker : EventBoundaryTracker) (i : Item) :
    (onItem g tracker i).Acts := by
  cases i with
  | chunk bytes =>
    rw [onItem, EventBoundaryTracker.feed_eq]
    trivial
  | failed e => exact announce_acts tracker _
  | done => trivial

theorem onCollected_acts (g : Gateway) (status : StatusCode) (ce : Option Coding)
    (body : Incoming) : (onCollected g status ce body).Acts := by
  obtain ⟨b, hb⟩ := Option.isSome_iff_exists.1 (errorBody_isSome g ce body)
  rw [onCollected, hb]
  trivial

theorem Next.sent_acts (next : Next) : next.sent.Acts := by
  cases next <;> trivial

theorem Next.refused_acts (next : Next) : next.refused.Acts := by
  cases next <;> trivial

/-- After the upstream's answer there may be another loop to enter. -/
theorem bridge_cases (g : Gateway) (result : Except Str (Response Incoming)) :
    (bridge g result).Acts ∨ ∃ l, bridge g result = .looping l := by
  cases result with
  | error e => exact .inl trivial
  | ok resp =>
    simp only [bridge, handleSuccess]
    split_ifs
    · split
      · exact .inl (announce_acts _ _)
      · exact .inr ⟨_, rfl⟩
    · exact .inr ⟨_, rfl⟩

/-- An answer inside the window spawns a task or leaves nothing to do. -/
theorem answer_cases (g : Gateway) (result : Except Str (Response Incoming)) :
    (answer g result).2 = .spawned (.relaying EventBoundaryTracker.new) ∨
      (answer g result).2 = .finished := by
  cases result with
  | error e => exact .inr rfl
  | ok resp =>
    simp only [answer]
    split_ifs
    · split
      · exact .inl rfl
      · exact .inr rfl
    · exact .inr rfl

/-! ### What re-arming does -/

/-- A sum in range is the deadline of a fresh `sleep`. -/
theorem checkedAdd_of_fits (D : Crates) {now : Instant} {d : Duration} (h : now.Fits d) :
    now.checkedAdd d = some (D.sleep now d) := by
  obtain ⟨deadline, hdeadline⟩ := Option.isSome_iff_exists.1 (Instant.checkedAdd_isSome_iff.2 h)
  rw [Crates.sleep, hdeadline]

theorem reset_of_resets (D : Crates) {now : Instant} {d : Duration} (h : now.Resets d) :
    now.reset d = some (D.sleep now d) :=
  Instant.reset_eq_some_iff.2 ⟨checkedAdd_of_fits D h.fits, h⟩

variable {s s' : State} {a : Action}

/-- A task panics only where it re-arms the timer, and only where the deadline is out of range. -/
theorem Step.ne_panicked (h : Step g s a s') (hs : s.task ≠ .panicked)
    (hresets : a = .rearm → s.now.Resets g.interval) : s'.task ≠ .panicked := by
  cases h with
  | clock hle => exact hs
  | elapse htask hdue => simp
  | heartbeat htask hset hdue => exact (onHeartbeat_acts _).ne_panicked
  | start htask => simp
  | @answer deadline result htask =>
    rcases answer_cases g result with heq | heq
    · simp [heq]
    · simp [heq]
  | @bridge result htask =>
    rcases bridge_cases g result with hacts | ⟨l, heq⟩
    · exact hacts.ne_panicked
    · simp [heq]
  | item htask => exact (onItem_acts g _ _).ne_panicked
  | collected htask => exact (onCollected_acts g _ _ _).ne_panicked
  | sent htask hconn hroom => exact (Next.sent_acts _).ne_panicked
  | refused htask hconn => exact (Next.refused_acts _).ne_panicked
  | rearm htask hreset => simp
  | overflow htask hreset =>
    rw [reset_of_resets g.crates (hresets rfl)] at hreset
    cases hreset
  | recv hqueue hconn => exact hs
  | disconnect hconn =>
    -- the task is left as it is, unless the handler was still racing
    intro hpanicked
    cases htask : s.task with
    | panicked => exact hs htask
    | _ =>
      rw [htask] at hpanicked
      cases hpanicked

/-- Where the timer can be reset, re-arming sets the deadline of a fresh `sleep` and goes on with
the loop. -/
theorem Step.rearm_fresh (h : Step g s .rearm s') (hresets : s.now.Resets g.interval) :
    ∃ l, s.task = .rearming l ∧
      s' = { s with task := .looping l, heartbeat := some (g.crates.sleep s.now g.interval) } := by
  have hfresh := reset_of_resets g.crates hresets
  cases h with
  | @rearm l deadline htask hreset =>
    obtain rfl := Option.some.inj (hfresh.symm.trans hreset)
    exact ⟨l, htask, rfl⟩
  | overflow htask hreset =>
    rw [hfresh] at hreset
    cases hreset

/-- Re-arming does not panic only where the timer can be reset. -/
theorem Step.resets_of_rearm (h : Step g s .rearm s') (hs : s'.task ≠ .panicked) :
    s.now.Resets g.interval := by
  cases h with
  | rearm htask hreset => exact (Instant.reset_eq_some_iff.1 hreset).2
  | overflow htask hreset => exact absurd rfl hs

end

/-! ### Runs -/

section

variable {g : Gateway} {parts : Parts} {body : Bytes} {now : Instant} {s₀ s : State}
  {as : List Action}

/-- What re-arming owes over a run: each time the timer is set as a fresh `sleep` would set it, the
loop goes on, and the task has not panicked at the end. -/
structure Rearms (g : Gateway) (s₀ : State) (as : List Action) (s : State) : Prop where
  fresh : Transition.AllSteps (step g) (fun s a ↦ a = .rearm → ∃ l, s.task = .rearming l ∧
    step g s a = some
      { s with task := .looping l, heartbeat := some (g.crates.sleep s.now g.interval) }) s₀ as
  alive : s.task ≠ .panicked

theorem handleStream_ne_panicked (h₀ : handleStream g parts body now = some s₀) :
    s₀.task ≠ .panicked := by
  obtain ⟨req, -, hs⟩ := Option.bind_eq_some_iff.1 h₀
  rw [← Option.some.inj hs]
  simp

/-- **The timer is re-armed as it should be precisely in the runs in which every deadline is in
range**, with the 999_999 nanoseconds that it is rounded by. -/
theorem rearms_iff (h₀ : handleStream g parts body now = some s₀)
    (hrun : Transition.run (step g) s₀ as = some s) :
    Rearms g s₀ as s ↔ Transition.AllSteps (step g)
      (fun s a ↦ a = .rearm →
        s.now.nanos + g.interval.secs.toNat * 10 ^ 9 + 999999 < 2 ^ 63 * 10 ^ 9) s₀ as := by
  constructor
  · -- a re-arm step that goes on with its loop did not overflow
    intro h pre a post s₁ has hpre ha
    obtain ⟨l, -, hstep⟩ := h.fresh pre a post s₁ has hpre ha
    subst ha
    exact (Step.of_step hstep).resets_of_rearm (by simp)
  · intro hresets
    refine ⟨fun pre a post s₁ has hpre ha ↦ ?_, ?_⟩
    · subst ha
      obtain ⟨s₂, hstep⟩ := Transition.step_of_run has hpre hrun
      obtain ⟨l, htask, rfl⟩ := (Step.of_step hstep).rearm_fresh
        (hresets pre .rearm post s₁ has hpre rfl)
      exact ⟨l, htask, hstep⟩
    · exact Transition.AllSteps.invariant (I := fun s ↦ s.task ≠ .panicked)
        (handleStream_ne_panicked h₀)
        (fun s a s' hs hreset hstep ↦ (Step.of_step hstep).ne_panicked hs hreset) hresets hrun

/-- Deadlines are in range throughout a run if they are from where the clock starts and from every
reading that it takes. -/
theorem resets_of_clock (h₀ : handleStream g parts body now = some s₀)
    (hnow : now.Resets g.interval) (hclock : ∀ t, .clock t ∈ as → t.Resets g.interval)
    (hrun : Transition.run (step g) s₀ as = some s) : s.now.Resets g.interval := by
  revert hclock
  refine Transition.run_induction
    (P := fun as s ↦ (∀ t, .clock t ∈ as → t.Resets g.interval) → s.now.Resets g.interval)
    (fun _ ↦ ?_) ?_ hrun
  · obtain ⟨req, -, hs⟩ := Option.bind_eq_some_iff.1 h₀
    rwa [← Option.some.inj hs]
  · intro as a s s' _ ih hstep hclock
    have hresets := ih fun t ht ↦ hclock t (List.mem_append_left _ ht)
    cases Step.of_step hstep with
    | @clock t hle => exact hclock t (List.mem_append_right _ (List.mem_singleton_self _))
    | _ => exact hresets

end

/-- At the default interval, a run that writes a heartbeat and relays a chunk re-arms the timer as
it should. -/
theorem rearms_broken_run :
    ∃ s₀ s, handleStream .reference (chatRequest ⟨utf8 "keep-alive".toList, by decide⟩) []
        (second 0) = some s₀ ∧
      Transition.run (step .reference) s₀ brokenRun = some s ∧
      Rearms .reference s₀ brokenRun s := by
  obtain ⟨s₀, s, h₀, hrun, -⟩ := brokenRun_spec
  refine ⟨s₀, s, h₀, hrun, (rearms_iff h₀ hrun).2 fun pre a post s₁ has hpre _ ↦ ?_⟩
  refine resets_of_clock h₀ (by decide) (fun t ht ↦ ?_) hpre
  have hmem : .clock t ∈ brokenRun := has ▸ List.mem_append_left _ ht
  have hclock : t = second 60 ∨ t = second 120 := by simpa [brokenRun] using hmem
  rcases hclock with rfl | rfl
  · decide
  · decide

/-- The longest interval that can be configured. -/
def longestConfig : Config :=
  { Config.reference with heartbeatInterval := 18446744073709551615 }

/-- A gateway with the longest interval. -/
def Gateway.longest : Gateway :=
  { Gateway.reference with
    cfg := { ResolvedConfig.reference with heartbeatInterval := ⟨18446744073709551615⟩ } }

/-- The upstream answers at once and sends an event; the client takes it. -/
def promptRun : List Action := [
  .upstream (.ok eventStream), .start, .item (.chunk (utf8 "data: a\n\n".toList)), .sent, .recv,
  .rearm]

theorem promptRun_spec :
    ∃ s₀ s, handleStream .longest (chatRequest ⟨utf8 "keep-alive".toList, by decide⟩) []
        (second 0) = some s₀ ∧
      Transition.run (step .longest) s₀ promptRun = some s ∧
      s.received = [utf8 "data: a\n\n".toList] ∧ s.connected = true ∧ s.task = .panicked :=
  ⟨_, _, rfl, rfl, rfl, rfl, rfl⟩

/-- The longest interval is accepted, and the task panics after the first chunk has been
delivered. -/
theorem longest_not_rearms :
    ResolvedConfig.parse .reference longestConfig = .ok Gateway.longest.cfg ∧
      ∃ s₀ s, handleStream .longest (chatRequest ⟨utf8 "keep-alive".toList, by decide⟩) []
          (second 0) = some s₀ ∧
        Transition.run (step .longest) s₀ promptRun = some s ∧
        s.received = [utf8 "data: a\n\n".toList] ∧ s.connected = true ∧ s.task = .panicked ∧
        ¬ Rearms .longest s₀ promptRun s := by
  obtain ⟨s₀, s, h₀, hrun, hreceived, hconn, htask⟩ := promptRun_spec
  exact ⟨rfl, s₀, s, h₀, hrun, hreceived, hconn, htask, fun h ↦ h.alive htask⟩

end KeepSse.Sse
