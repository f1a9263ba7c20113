import KeepSse.Sse.Keepalive

/-!
# When the client goes away

A task that is spawned outlives its client, and notices by a write that is refused. What it does
until then is little and bounded (`abandoned`): nothing reaches the client any more, no request is
made, at most one more item is taken from the upstream, and at most two writes are refused.

It is bounded in time as well, since the next heartbeat is such a write: in a prompt run the task is
over an interval later, unless the upstream has not come to an event boundary, which keeps it from
writing heartbeats. Then it stays until the upstream says something.

## What it rests on

* The two counts are budgets that no step raises and that a refused write or an item uses up
  (`Task.refusals`, `Task.appetite`, `Abandoned.step`). That there can be a second refusal is the
  code's own choice: a blank line that is refused is not looked at, and the error event is tried
  after it.
* The time is that of a silence. The client's leaving begins a lull (`Step.lull_of_disconnect`),
  because a timer that is set is due within an interval (`Sound.armed`), and a lull that has lasted
  for an interval ends with a write, which is refused.
* Nothing is assumed of the state in which the client leaves: it may be in the window, in any of the
  three loops, or while a frame waits for room in the channel.
-/

namespace KeepSse.Sse

open Text Http EventStream

/-- A write that is refused. -/
def Action.isRefused : Action → Bool
  | .refused => true
  | _ => false

/-- Something is taken from the upstream's stream: an item, or an error body. -/
def Action.isTaken : Action → Bool
  | .item _ => true
  | .collected => true
  | _ => false

/-- How many writes of a task can be refused. -/
def Task.refusals : Task → ℕ
  | .writing _ (.rearm _) => 1
  | .writing _ (.closing _) => 2
  | .writing _ .finish => 1
  | .finished => 0
  | .panicked => 0
  | .cancelled => 0
  | _ => 2

/-- How many items a task takes whose writes are refused. -/
def Task.appetite : Task → ℕ
  | .window _ => 1
  | .spawned _ => 1
  | .looping _ => 1
  | .rearming _ => 1
  | _ => 0

@[simp] theorem Task.refusals_looping (l : Loop) : (Task.looping l).refusals = 2 := rfl

@[simp] theorem Task.appetite_looping (l : Loop) : (Task.looping l).appetite = 1 := rfl

theorem Task.refusals_le (t : Task) : t.refusals ≤ 2 := by
  unfold refusals
  split <;> decide

theorem Task.appetite_le (t : Task) : t.appetite ≤ 1 := by
  unfold appetite
  split <;> decide

/-- A task that has no loop to come back to takes nothing more. -/
theorem Task.appetite_of_loop? {t : Task} (h : t.loop? = none) : t.appetite = 0 := by
  cases t with
  | window deadline => cases h
  | spawned l => cases h
  | looping l => cases h
  | rearming l => cases h
  | _ => rfl

section

variable {g : Gateway} {s s' : State} {a : Action}

/-- What an item leads to takes no other item, unless its write goes through. -/
theorem onItem_appetite (tracker : EventBoundaryTracker) (i : Item) :
    (onItem g tracker i).appetite = 0 := by
  cases i with
  | chunk bytes =>
    rw [onItem, EventBoundaryTracker.feed_eq]
    rfl
  | failed e => exact Task.appetite_of_loop? (announce_loop tracker _)
  | done => rfl

theorem onCollected_appetite (status : StatusCode) (ce : Option Coding) (body : Incoming) :
    (onCollected g status ce body).appetite = 0 := by
  rw [onCollected]
  split
  · rfl
  · rfl

/-! ### What is left to do -/

/-- What remains of a run once the client has gone. -/
structure Abandoned (s₁ : State) (q : List Action) (s : State) : Prop where
  connected : s.connected = false
  /-- Nothing reaches the client. -/
  received : s.received = s₁.received
  queue : s.queue = []
  /-- Nothing is answered that has not been answered, and nothing is asked of the upstream. -/
  reply : s.reply = s₁.reply
  requests : s.requests = s₁.requests
  past : ∀ deadline, s.task ≠ .window deadline
  unsent : .sent ∉ q
  refused : q.countP Action.isRefused + s.task.refusals ≤ 2
  taken : q.countP Action.isTaken + s.task.appetite ≤ 1

/-- The client goes away. -/
theorem abandoned_of_disconnect (h : Step g s .disconnect s') : Abandoned s [] s' := by
  cases h with
  | disconnect hconn =>
    refine ⟨rfl, rfl, rfl, rfl, rfl, fun deadline htask ↦ ?_, by simp,
      by simpa using Task.refusals_le _, by simpa using Task.appetite_le _⟩
    cases hs : s.task with
    | _ =>
      rw [hs] at htask
      cases htask

/-- **Each step uses up some of what is left.** -/
theorem Abandoned.step {s₁ : State} {q : List Action} (hs : Abandoned s₁ q s)
    (h : Step g s a s') : Abandoned s₁ (q ++ [a]) s' := by
  have hconn := hs.connected
  -- the bounds carry over to a task that does not want more
  have hact {t : Task} {now : Instant} {timer : Option Instant} (ha : a ≠ .sent)
      (hpast : ∀ deadline, t ≠ .window deadline)
      (hrefused : [a].countP Action.isRefused + t.refusals ≤ s.task.refusals)
      (htaken : [a].countP Action.isTaken + t.appetite ≤ s.task.appetite) :
      Abandoned s₁ (q ++ [a]) { s with now := now, task := t, heartbeat := timer } := by
    refine ⟨hconn, hs.received, hs.queue, hs.reply, hs.requests, hpast, ?_, ?_, ?_⟩
    · simpa [hs.unsent] using ha.symm
    · rw [List.countP_append]
      have := hs.refused
      simp only
      omega
    · rw [List.countP_append]
      have := hs.taken
      simp only
      omega
  cases h with
  | clock hle =>
    exact hact (by simp) hs.past (by simp [Action.isRefused]) (by simp [Action.isTaken])
  | elapse htask hdue => exact absurd htask (hs.past _)
  | @heartbeat l deadline htask hset hdue =>
    refine hact (by simp) (onHeartbeat_acts l).ne_window ?_ ?_
    · simpa [htask, Action.isRefused] using Task.refusals_le _
    · simpa [htask, Action.isTaken] using Task.appetite_le _
  | start htask =>
    exact hact (by simp) (by simp) (by simp [htask, Action.isRefused, Task.refusals])
      (by simp [htask, Action.isTaken, Task.appetite])
  | answer htask => exact absurd htask (hs.past _)
  | @bridge result htask =>
    refine hact (by simp) ?_ ?_ ?_
    · rcases bridge_cases g result with hacts | ⟨l, heq⟩
      · exact hacts.ne_window
      · rw [heq]
        simp
    · simpa [htask, Action.isRefused] using Task.refusals_le _
    · simpa [htask, Action.isTaken] using Task.appetite_le _
  | @item tracker i htask =>
    refine hact (by simp) (onItem_acts g tracker i).ne_window ?_ ?_
    · simpa [htask, Action.isRefused] using Task.refusals_le _
    · simp [htask, Action.isTaken, onItem_appetite]
  | @collected status ce body htask =>
    refine hact (by simp) (onCollected_acts g status ce body).ne_window ?_ ?_
    · simpa [htask, Action.isRefused] using Task.refusals_le _
    · simp [htask, Action.isTaken, onCollected_appetite]
  | sent htask hconn' hroom =>
    rw [hconn] at hconn'
    exact Bool.noConfusion hconn'
  | @refused frame next htask hconn' =>
    refine hact (by simp) next.refused_acts.ne_window ?_ ?_
    · cases next <;> simp [htask, Action.isRefused, Task.refusals, Next.refused]
    · cases next <;> simp [htask, Action.isTaken, Task.appetite, Next.refused]
  | rearm htask hreset =>
    exact hact (by simp) (by simp) (by simp [htask, Action.isRefused, Task.refusals])
      (by simp [htask, Action.isTaken, Task.appetite])
  | overflow htask hreset =>
    exact hact (by simp) (by simp) (by simp [htask, Action.isRefused, Task.refusals])
      (by simp [htask, Action.isTaken, Task.appetite])
  | recv hqueue hconn' =>
    rw [hconn] at hconn'
    exact Bool.noConfusion hconn'
  | disconnect hconn' =>
    rw [hconn] at hconn'
    exact Bool.noConfusion hconn'

/-- The client's leaving begins a lull: a timer that is set is due within an interval. -/
theorem Step.lull_of_disconnect (h : Step g s .disconnect s') (hs : Sound g s) :
    s'.task.Lull g s.now.nanos s' := by
  have hpos := g.interval.nanos_nonneg
  cases h with
  | disconnect hconn =>
    cases htask : s.task with
    | window deadline => trivial
    | spawned l => exact Int.le_refl _
    | looping l => exact .inr ⟨by simp only; omega, hs.armed l htask⟩
    | rearming l => exact .inr (Int.le_refl _)
    | _ => trivial

end

/-! ### Runs -/

section

variable {g : Gateway} {parts : Parts} {body : Bytes} {now : Instant} {s₀ s₁ s : State}
  {p q : List Action}

/-- **An abandoned task comes to its end.** After the client has gone, nothing reaches it, at most
one more item is taken from the upstream, and at most two writes are refused; and in a prompt run
the task is over an interval later, unless it is just being refused or the bytes of the upstream
leave something open. -/
theorem abandoned (h₀ : handleStream g parts body now = some s₀)
    (hp : Transition.run (step g) s₀ p = some s₁)
    (hrun : Transition.run (step g) s₀ (p ++ .disconnect :: q) = some s) :
    Abandoned s₁ q s ∧
      (Transition.AllSteps (step g) Prompt s₀ (p ++ .disconnect :: q) →
        s.task.Over ∨ (∃ frame next, s.task = .writing frame next) ∨
          ¬Settled (yielded (p ++ .disconnect :: q)).flatten ∨
          s.now.nanos ≤ s₁.now.nanos + g.interval.nanos) := by
  have hwatched := watched_run h₀ hrun
  rw [Transition.run_append, hp, Option.bind_some, Transition.run, Option.bind_eq_some_iff] at hrun
  obtain ⟨s₂, hstep, hq⟩ := hrun
  have habandoned : Abandoned s₁ q s :=
    Transition.run_induction (P := fun q s ↦ Abandoned s₁ q s)
      (abandoned_of_disconnect (Step.of_step hstep))
      (fun _ _ _ _ _ ih hstep ↦ ih.step (Step.of_step hstep)) hq
  refine ⟨habandoned, fun hprompt ↦ ?_⟩
  have hrest := (Transition.allSteps_cons.1 (hprompt.of_append hp)).2 s₂ hstep
  have hlull := lull_run hrest habandoned.unsent
    ((Step.of_step hstep).lull_of_disconnect (sound_run h₀ hp)) hq
  refine hlull.cases.imp_right (Or.imp_right (Or.imp_left ?_))
  rintro ⟨l, hl, hopen⟩
  exact (hwatched l hl).not_settled hopen

end

/-- The client goes away after the event, and the next heartbeat is refused. -/
theorem abandoned_steady :
    ∃ s₀ s₁ s, handleStream .reference (chatRequest ⟨utf8 "keep-alive".toList, by decide⟩) []
        (second 0) = some s₀ ∧
      Transition.run (step .reference) s₀ (steadyRun.take 11) = some s₁ ∧
      Transition.run (step .reference) s₀
        (steadyRun.take 11 ++ .disconnect :: [.clock (second 180), .timer, .refused]) = some s ∧
      s.task = .finished ∧ Abandoned s₁ [.clock (second 180), .timer, .refused] s := by
  obtain ⟨s₀, s₁, s, h₀, hp, hrun, htask⟩ :
      ∃ s₀ s₁ s, handleStream .reference (chatRequest ⟨utf8 "keep-alive".toList, by decide⟩) []
          (second 0) = some s₀ ∧
        Transition.run (step .reference) s₀ (steadyRun.take 11) = some s₁ ∧
        Transition.run (step .reference) s₀
          (steadyRun.take 11 ++ .disconnect :: [.clock (second 180), .timer, .refused]) = some s ∧
        s.task = .finished :=
    ⟨_, _, _, rfl, rfl, rfl, rfl⟩
  exact ⟨s₀, s₁, s, h₀, hp, hrun, htask, (abandoned h₀ hp hrun).1⟩

end KeepSse.Sse
