import KeepSse.Sse.Reading
import KeepSse.Sse.Rearm

/-!
# Heartbeats into silence

A heartbeat is written only after the timer has run for a whole interval since the task last wrote
anything (`heartbeat_into_silence`). The timer is one for three loops, it may expire while a write
is blocked, and it is re-armed in some branches only; but every branch that goes back to a loop sets
it at a moment when nothing is being written.

## What it rests on

The property is one about time: from a write on, no heartbeat *before* a certain moment. This is an
invariant (`Quiet`) of all steps after the write, whatever the loop (`Step.quiet`), and the same one
serves from the start of the task on (`quiet_of_sent`, `quiet_of_start`). It speaks of the timer
that is set and of the one that would be set by re-arming now, because a task that is between two
loops has not set it yet. When the timer does fire, it is due (`heartbeat_of_timer`), and the moment
has come (`Quiet.le_now`).

No assumption is made on how promptly the task is run. A task that is run late writes late, and
never early.

## The first deadline

The first deadline comes from a `sleep`, which ends early if the true deadline is out of range: with
an interval of more than 2^63 seconds the first heartbeat comes after thirty years
(`longest_not_into_silence`). So what is said of the time before the first write is a little less
than what is said of the time after one.
-/

namespace KeepSse.Sse

open Text Http EventStream

/-! ### Deadlines -/

theorem nanos_of_checkedAdd {now deadline : Instant} {d : Duration}
    (h : now.checkedAdd d = some deadline) : deadline.nanos = now.nanos + d.nanos := by
  rw [Instant.checkedAdd] at h
  split_ifs at h
  rw [← Option.some.inj h]

/-- A re-armed timer has the sum as its deadline. -/
theorem nanos_of_reset {now deadline : Instant} {d : Duration}
    (h : now.reset d = some deadline) : deadline.nanos = now.nanos + d.nanos :=
  nanos_of_checkedAdd (Instant.reset_eq_some_iff.1 h).1

/-- So has a `sleep`, if the sum is in range. -/
theorem sleep_of_fits (D : Crates) {now : Instant} {d : Duration} (h : now.Fits d) :
    (D.sleep now d).nanos = now.nanos + d.nanos :=
  nanos_of_checkedAdd (checkedAdd_of_fits D h)

/-- In any case it ends no later. -/
theorem sleep_le (D : Crates) (now : Instant) (d : Duration) :
    (D.sleep now d).nanos ≤ now.nanos + d.nanos := by
  by_cases hfits : now.Fits d
  · exact Int.le_of_eq (sleep_of_fits D hfits)
  · have hupper := (D.sleep now d).upper
    unfold Instant.Fits at hfits
    omega

/-! ### No heartbeat before a moment -/

/-- The task has been started, and its timer does not fire before `b` if it waits for it. -/
def Task.Armed (b : ℤ) (timer : Option Instant) : Task → Prop
  | .window _ => False
  | .spawned _ => False
  | .looping _ => ∃ deadline, timer = some deadline ∧ b ≤ deadline.nanos
  | _ => True

/-- There is no heartbeat before `b`: the timer is not due before, and would not be if it were
re-armed now. -/
structure Quiet (g : Gateway) (b : ℤ) (s : State) : Prop where
  armed : s.task.Armed b s.heartbeat
  ahead : b ≤ s.now.nanos + g.interval.nanos

section

variable {g : Gateway} {b : ℤ} {timer : Option Instant}

/-- A task that acts does not wait for the timer. -/
theorem Task.Acts.armed {t : Task} (h : t.Acts) : t.Armed b timer := by
  cases t with
  | window deadline => exact h.elim
  | spawned l => exact h.elim
  | looping l => exact h.elim
  | _ => trivial

variable {s s' : State} {a : Action}

/-- **No step brings the next heartbeat forward.** -/
theorem Step.quiet (h : Step g s a s') (hs : Quiet g b s) : Quiet g b s' := by
  obtain ⟨harmed, hahead⟩ := hs
  cases h with
  | @clock t hle =>
    have hle : s.now.nanos ≤ t.nanos := hle
    exact ⟨harmed, by simp only; omega⟩
  | elapse htask hdue =>
    rw [htask] at harmed
    exact harmed.elim
  | heartbeat htask hset hdue => exact ⟨(onHeartbeat_acts _).armed, hahead⟩
  | start htask =>
    rw [htask] at harmed
    exact harmed.elim
  | answer htask =>
    rw [htask] at harmed
    exact harmed.elim
  | @bridge result htask =>
    -- the timer is handed over to the next loop as it is
    rcases bridge_cases g result with hacts | ⟨l, heq⟩
    · exact ⟨hacts.armed, hahead⟩
    · rw [htask] at harmed
      exact ⟨by rw [heq]; exact harmed, hahead⟩
  | item htask => exact ⟨(onItem_acts g _ _).armed, hahead⟩
  | collected htask => exact ⟨(onCollected_acts g _ _ _).armed, hahead⟩
  | sent htask hconn hroom => exact ⟨(Next.sent_acts _).armed, hahead⟩
  | refused htask hconn => exact ⟨(Next.refused_acts _).armed, hahead⟩
  | @rearm l deadline htask hreset =>
    exact ⟨⟨deadline, rfl, by rw [nanos_of_reset hreset]; exact hahead⟩, hahead⟩
  | overflow htask hreset => exact ⟨trivial, hahead⟩
  | recv hqueue hconn => exact ⟨harmed, hahead⟩
  | disconnect hconn =>
    refine ⟨?_, hahead⟩
    -- the task is left as it is, since it is not in the window
    cases htask : s.task with
    | window deadline =>
      rw [htask] at harmed
      exact harmed.elim
    | _ =>
      rw [htask] at harmed
      exact harmed

/-- And so it is from there on. -/
theorem quiet_run {as : List Action} (hs : Quiet g b s)
    (hrun : Transition.run (step g) s as = some s') : Quiet g b s' :=
  Transition.run_induction (P := fun _ s ↦ Quiet g b s) hs
    (fun _ _ _ _ _ ih hstep ↦ (Step.of_step hstep).quiet ih) hrun

/-! ### Where silence begins -/

/-- After a write there is an interval without heartbeats. -/
theorem quiet_of_sent (h : Step g s .sent s') : Quiet g (s.now.nanos + g.interval.nanos) s' := by
  cases h with
  | sent htask hconn hroom => exact ⟨(Next.sent_acts _).armed, Int.le_refl _⟩

/-- After the start of the task there is none before the `sleep` ends. -/
theorem quiet_of_start (h : Step g s .start s') :
    Quiet g (g.crates.sleep s.now g.interval).nanos s' := by
  cases h with
  | start htask => exact ⟨⟨_, rfl, Int.le_refl _⟩, sleep_le g.crates s.now g.interval⟩

/-- The timer that leads to a write is due, and what it writes is a heartbeat. -/
theorem heartbeat_of_timer {frame : Bytes} {next : Next} (h : Step g s .timer s')
    (htask : s'.task = .writing frame next) :
    frame = heartbeat ∧
      ∃ l deadline, s.task = .looping l ∧ s.heartbeat = some deadline ∧ deadline ≤ s.now := by
  cases h with
  | elapse hwindow hdue => cases htask
  | @heartbeat l deadline hloop hset hdue =>
    refine ⟨?_, l, deadline, hloop, hset, hdue⟩
    simp only [Loop.onHeartbeat] at htask
    split at htask
    · split_ifs at htask
      exact (Task.writing.inj htask).1.symm
    · exact (Task.writing.inj htask).1.symm

/-- Nothing is written by the timer before the silence is over. -/
theorem Quiet.le_now {frame : Bytes} {next : Next} (hs : Quiet g b s) (h : Step g s .timer s')
    (htask : s'.task = .writing frame next) : b ≤ s.now.nanos := by
  obtain ⟨-, l, deadline, hloop, hset, hdue⟩ := heartbeat_of_timer h htask
  have harmed := hs.armed
  rw [hloop, hset] at harmed
  obtain ⟨deadline', heq, hle⟩ := harmed
  obtain rfl := Option.some.inj heq
  exact Int.le_trans hle hdue

end

/-! ### Runs -/

section

variable {g : Gateway} {parts : Parts} {body : Bytes} {now : Instant} {s₀ s s' : State}
  {as : List Action}

/-- Until it is started, a task is in its window or spawned, or it never will be. -/
def Task.Unstarted : Task → Prop
  | .window _ => True
  | .spawned _ => True
  | .finished => True
  | .cancelled => True
  | _ => False

theorem Step.unstarted {a : Action} (h : Step g s a s') (hs : s.task.Unstarted) :
    a = .start ∨ s'.task.Unstarted := by
  cases h with
  | start htask => exact .inl rfl
  | clock hle => exact .inr hs
  | elapse htask hdue => exact .inr trivial
  | recv hqueue hconn => exact .inr hs
  | @answer deadline result htask =>
    refine .inr ?_
    rcases answer_cases g result with heq | heq
    · rw [heq]
      trivial
    · rw [heq]
      trivial
  | disconnect hconn =>
    refine .inr ?_
    cases htask : s.task with
    | window deadline => trivial
    | _ =>
      rw [htask] at hs
      exact hs
  | heartbeat htask | bridge htask | item htask | collected htask | sent htask | refused htask
  | rearm htask | overflow htask =>
    rw [htask] at hs
    exact hs.elim

/-- A task in a loop has been started. -/
theorem start_mem (h₀ : handleStream g parts body now = some s₀)
    (hrun : Transition.run (step g) s₀ as = some s) (hs : ¬s.task.Unstarted) : .start ∈ as := by
  have hor : .start ∈ as ∨ s.task.Unstarted := by
    refine Transition.run_induction (P := fun as s ↦ .start ∈ as ∨ s.task.Unstarted) ?_ ?_ hrun
    · obtain ⟨req, -, hs₀⟩ := Option.bind_eq_some_iff.1 h₀
      rw [← Option.some.inj hs₀]
      exact .inr trivial
    · intro as a s s' _ ih hstep
      rcases ih with ih | ih
      · exact .inl (List.mem_append_left _ ih)
      · rcases (Step.of_step hstep).unstarted ih with rfl | hs'
        · exact .inl (by simp)
        · exact .inr hs'
  exact hor.resolve_right hs

/-- What begins at a step of a run lasts to its end. -/
theorem quiet_of_step {b : ℤ} {p q : List Action} {a : Action} {s₁ : State}
    (hbegin : ∀ s₂, Step g s₁ a s₂ → Quiet g b s₂)
    (hp : Transition.run (step g) s₀ p = some s₁)
    (hrun : Transition.run (step g) s₀ (p ++ a :: q) = some s) : Quiet g b s := by
  rw [Transition.run_append, hp, Option.bind_some, Transition.run, Option.bind_eq_some_iff] at hrun
  obtain ⟨s₂, hstep, hrest⟩ := hrun
  exact quiet_run (hbegin s₂ (Step.of_step hstep)) hrest

/-- **Heartbeats are sent only into silence.** Whenever the timer makes the task write a frame, the
frame is a heartbeat; every write before it was complete an interval ago or longer; and the task was
started before, at the latest when a `sleep` had to begin that is now over. If the deadline of this
`sleep` was in range, that is an interval ago or longer as well. -/
theorem heartbeat_into_silence (h₀ : handleStream g parts body now = some s₀)
    (hrun : Transition.run (step g) s₀ as = some s) (hstep : step g s .timer = some s')
    {frame : Bytes} {next : Next} (htask : s'.task = .writing frame next) :
    frame = heartbeat ∧
      (∀ p q s₁, as = p ++ .sent :: q → Transition.run (step g) s₀ p = some s₁ →
        s₁.now.nanos + g.interval.nanos ≤ s.now.nanos) ∧
      .start ∈ as ∧
      ∀ p q s₁, as = p ++ .start :: q → Transition.run (step g) s₀ p = some s₁ →
        (g.crates.sleep s₁.now g.interval).nanos ≤ s.now.nanos ∧
        (s₁.now.Fits g.interval → s₁.now.nanos + g.interval.nanos ≤ s.now.nanos) := by
  have htimer := Step.of_step hstep
  obtain ⟨hframe, l, -, hloop, -⟩ := heartbeat_of_timer htimer htask
  refine ⟨hframe, fun p q s₁ has hp ↦ ?_, start_mem h₀ hrun (by rw [hloop]; exact id),
    fun p q s₁ has hp ↦ ?_⟩
  · subst has
    exact (quiet_of_step (fun _ ↦ quiet_of_sent) hp hrun).le_now htimer htask
  · subst has
    have hover := (quiet_of_step (fun _ ↦ quiet_of_start) hp hrun).le_now htimer htask
    exact ⟨hover, fun hfits ↦ by rwa [sleep_of_fits g.crates hfits] at hover⟩

end

/-- A client that is kept waiting gets heartbeats from two loops; the last of them comes eighty
seconds after a chunk, though the interval is sixty. -/
def tickingRun : List Action :=
  splitRun.take 12

/-- The last heartbeat of the run comes an interval after the chunk that was written before it. -/
theorem heartbeat_into_silence_ticking :
    ∃ s₀ s₁ s s' l, handleStream .reference (chatRequest ⟨utf8 "keep-alive".toList, by decide⟩) []
        (second 0) = some s₀ ∧
      Transition.run (step .reference) s₀ (splitRun.take 9) = some s₁ ∧
      Transition.run (step .reference) s₀ tickingRun = some s ∧
      step .reference s .timer = some s' ∧ s'.task = .writing heartbeat (.rearm l) ∧
      s₁.now.nanos + Gateway.reference.interval.nanos ≤ s.now.nanos := by
  obtain ⟨s₀, s₁, s, s', l, h₀, hp, hrun, hstep, htask⟩ :
      ∃ s₀ s₁ s s' l, handleStream .reference
          (chatRequest ⟨utf8 "keep-alive".toList, by decide⟩) [] (second 0) = some s₀ ∧
        Transition.run (step .reference) s₀ (splitRun.take 9) = some s₁ ∧
        Transition.run (step .reference) s₀ tickingRun = some s ∧
        step .reference s .timer = some s' ∧ s'.task = .writing heartbeat (.rearm l) :=
    ⟨_, _, _, _, _, rfl, rfl, rfl, rfl, rfl⟩
  exact ⟨s₀, s₁, s, s', l, h₀, hp, hrun, hstep, htask,
    (heartbeat_into_silence h₀ hrun hstep htask).2.1 (splitRun.take 9)
      [.rearm, .clock (second 200)] s₁ rfl hp⟩

/-- The upstream answers at once and is silent for thirty years. -/
def longRun : List Action :=
  [.upstream (.ok eventStream), .start, .clock (Reference.farFuture (second 0))]

/-- With the longest interval, the first heartbeat comes after thirty years. -/
theorem longest_not_into_silence :
    ∃ s₀ s₁ s s' l, handleStream .longest (chatRequest ⟨utf8 "keep-alive".toList, by decide⟩) []
        (second 0) = some s₀ ∧
      Transition.run (step .longest) s₀ [.upstream (.ok eventStream)] = some s₁ ∧
      Transition.run (step .longest) s₀ longRun = some s ∧
      step .longest s .timer = some s' ∧ s'.task = .writing heartbeat (.rearm l) ∧
      ¬s₁.now.nanos + Gateway.longest.interval.nanos ≤ s.now.nanos :=
  ⟨_, _, _, _, _, rfl, rfl, rfl, rfl, rfl, by decide⟩

end KeepSse.Sse
