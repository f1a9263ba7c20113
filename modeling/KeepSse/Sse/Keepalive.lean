import KeepSse.Sse.Boundary
import KeepSse.Sse.Progress

/-!
# Silence does not last

What the gateway is for: a client is not left without a byte for longer than the interval, unless
the upstream has left an event open, where a heartbeat would do harm (`silence_le`).

This is a bound from above, so it is one on the runtime as well: if nobody runs the task, nothing is
written. The runs that it speaks about are those in which what can be done is done before the clock
goes on (`Prompt`). Only a client who does not take its frames may hold them up.

## The invariant of a silence

`Lull` is what holds of a silence that began at a certain moment. A loop waits with a timer that is
due an interval after that moment, whichever loop took it over from which; it is put off only by a
tick that is skipped because an event is open, and what closes an event is a write. A step other
than a write keeps the lull if it is prompt (`Step.lull`), so that it lasts as long as the silence
does (`lull_run`); and a lull that has lasted for an interval has a reason (`Task.Lull.cases`).

The client's leaving begins a silence too, so the same invariant bounds how long an abandoned task
lasts (`Sse.Abandoned`).

## What else `silence_le` rests on

* Whether a tick is skipped depends on the tracker. That the tracker of a run has seen the chunks of
  the run (`watched_run`) makes it a condition on the bytes that the upstream has sent (`Settled`).
* Before there is a head the window is open, and closes an interval after the request
  (`awaits_run`).
-/

namespace KeepSse.Sse

open Text Http EventStream

/-! ### What is left open -/

/-- The bytes of an event stream leave nothing open: nothing follows the last terminator, and the
line that it ended, if there is one, is empty. -/
def Settled (s : Bytes) : Prop :=
  (lines s).2 = [] ∧ ∀ l ∈ (lines s).1.getLast?, l = []

instance (s : Bytes) : Decidable (Settled s) :=
  inferInstanceAs (Decidable (_ ∧ _))

/-- The tracker is at a boundary exactly where nothing is left open. -/
theorem settled_iff {s : Bytes} :
    Settled s ↔ (s.foldl EventBoundaryTracker.feedByte .new).atBoundary = true := by
  rw [EventBoundaryTracker.summarises_new.atBoundary_foldl, ← lines, Option.or_none]
  rfl

/-- The loop that a task is in, or comes to next. -/
def Task.loop? : Task → Option Loop
  | .window _ => some .waiting
  | .spawned l => some l
  | .looping l => some l
  | .rearming l => some l
  | .writing _ (.rearm l) => some l
  | _ => none

/-- The tracker of a loop has seen these bytes. Other loops come before any bytes. -/
def Loop.Watched (bs : Bytes) : Loop → Prop
  | .relaying tracker => tracker = bs.foldl EventBoundaryTracker.feedByte .new
  | _ => bs = []

/-- The relaying loop skips its ticks while the tracker is not at a boundary. -/
def Loop.Open : Loop → Prop
  | .relaying tracker => tracker.atBoundary = false
  | _ => False

theorem Loop.Watched.not_settled {l : Loop} {bs : Bytes} (h : l.Watched bs) (hopen : l.Open) :
    ¬Settled bs := by
  cases l with
  | relaying tracker =>
    obtain rfl := h
    rw [settled_iff, Bool.not_eq_true]
    exact hopen
  | waiting => exact hopen.elim
  | collecting status ce body => exact hopen.elim

section

variable {g : Gateway} {s s' : State} {a : Action} {bs : Bytes}

/-- A tick leaves the loop as it is. -/
theorem onHeartbeat_loop (l : Loop) : l.onHeartbeat.loop? = some l := by
  cases l with
  | relaying tracker =>
    rw [Loop.onHeartbeat]
    split_ifs <;> rfl
  | waiting => rfl
  | collecting status ce body => rfl

theorem announce_loop (tracker : EventBoundaryTracker) (ev : Bytes) :
    (announce tracker ev).loop? = none := by
  rcases announce_cases tracker ev with ⟨-, heq⟩ | heq
  · rw [heq]
    rfl
  · rw [heq]
    rfl

/-- The upstream's answer leads to a loop that has seen nothing, or to none. -/
theorem bridge_loop (result : Except Str (Response Incoming)) :
    ∀ l ∈ (bridge g result).loop?, l.Watched [] := by
  intro l hl
  cases result with
  | error e => cases hl
  | ok resp =>
    simp only [bridge, handleSuccess] at hl
    split_ifs at hl
    · split at hl
      · rw [announce_loop] at hl
        cases hl
      · obtain rfl := Option.some.inj hl
        rfl
    · obtain rfl := Option.some.inj hl
      rfl

/-- **The loop has seen what the stream has yielded**, one step further. -/
theorem Step.watched (h : Step g s a s') (hs : ∀ l ∈ s.task.loop?, l.Watched bs) :
    ∀ l ∈ s'.task.loop?, l.Watched (bs ++ (yielded [a]).flatten) := by
  -- an action that yields no chunk leaves the bytes as they are
  have hkeep {t : Task} (ht : ∀ l ∈ t.loop?, l.Watched bs) (hyield : yielded [a] = []) :
      ∀ l ∈ t.loop?, l.Watched (bs ++ (yielded [a]).flatten) := by
    rw [hyield, List.flatten_nil, List.append_nil]
    exact ht
  cases h with
  | clock hle => exact hkeep hs rfl
  | elapse htask hdue =>
    rw [htask] at hs
    exact hkeep hs rfl
  | heartbeat htask hset hdue =>
    refine hkeep ?_ rfl
    rw [onHeartbeat_loop]
    rwa [htask] at hs
  | start htask =>
    rw [htask] at hs
    exact hkeep hs rfl
  | @answer deadline result htask =>
    rw [htask] at hs
    obtain rfl : bs = [] := hs .waiting rfl
    refine hkeep (fun l hl ↦ ?_) rfl
    rcases answer_cases g result with heq | heq
    · rw [heq] at hl
      obtain rfl := Option.some.inj hl
      rfl
    · rw [heq] at hl
      cases hl
  | @bridge result htask =>
    rw [htask] at hs
    obtain rfl : bs = [] := hs .waiting rfl
    exact hkeep (bridge_loop result) rfl
  | @item tracker i htask =>
    rw [htask] at hs
    obtain rfl : tracker = bs.foldl EventBoundaryTracker.feedByte .new := hs _ rfl
    cases i with
    | chunk b =>
      intro l hl
      rw [onItem, EventBoundaryTracker.feed_eq] at hl
      obtain rfl := Option.some.inj hl
      show _ = (bs ++ [b].flatten).foldl EventBoundaryTracker.feedByte .new
      rw [List.flatten_singleton, List.foldl_append]
    | failed e =>
      refine hkeep (fun l hl ↦ ?_) rfl
      rw [onItem, announce_loop] at hl
      cases hl
    | done => exact hkeep (fun l hl ↦ by cases hl) rfl
  | @collected status ce body htask =>
    refine hkeep (fun l hl ↦ ?_) rfl
    rw [onCollected] at hl
    split at hl
    · cases hl
    · cases hl
  | @sent frame next htask hconn hroom =>
    rw [htask] at hs
    refine hkeep (fun l hl ↦ ?_) rfl
    cases next with
    | rearm l' => exact hs l hl
    | closing ev => cases hl
    | finish => cases hl
  | @refused frame next htask hconn =>
    refine hkeep (fun l hl ↦ ?_) rfl
    cases next <;> cases hl
  | rearm htask hreset =>
    rw [htask] at hs
    exact hkeep hs rfl
  | overflow htask hreset => exact hkeep (fun l hl ↦ by cases hl) rfl
  | recv hqueue hconn => exact hkeep hs rfl
  | disconnect hconn =>
    refine hkeep (fun l hl ↦ ?_) rfl
    cases htask : s.task with
    | window deadline =>
      rw [htask] at hl
      cases hl
    | _ =>
      rw [htask] at hl
      exact hs l (htask ▸ hl)

end

/-- The tracker of a run has seen the chunks of the run. -/
theorem watched_run {g : Gateway} {parts : Parts} {body : Bytes} {now : Instant} {s₀ s : State}
    {as : List Action} (h₀ : handleStream g parts body now = some s₀)
    (hrun : Transition.run (step g) s₀ as = some s) :
    ∀ l ∈ s.task.loop?, l.Watched (yielded as).flatten := by
  refine Transition.run_induction
    (P := fun as s ↦ ∀ l ∈ s.task.loop?, l.Watched (yielded as).flatten) ?_ ?_ hrun
  · obtain ⟨req, -, hs⟩ := Option.bind_eq_some_iff.1 h₀
    obtain rfl := Option.some.inj hs
    intro l hl
    obtain rfl := Option.some.inj hl
    rfl
  · intro as a s s' _ ih hstep
    have hyield : yielded (as ++ [a]) = yielded as ++ yielded [a] := List.filterMap_append
    rw [hyield, List.flatten_append]
    exact (Step.of_step hstep).watched ih

/-! ### Prompt runs -/

/-- The clock may go on to a moment: as far as the next deadline where the task waits for one, and
not at all where the task can go on at once. A write that the channel has no room for lasts as long
as the client likes. -/
def Task.MayWait (s : State) (t : Instant) : Task → Prop
  | .window deadline => t ≤ deadline
  | .looping _ => ∀ deadline ∈ s.heartbeat, t ≤ deadline
  | .spawned _ => t ≤ s.now
  | .rearming _ => t ≤ s.now
  | .writing _ _ => t ≤ s.now ∨ (s.connected = true ∧ capacity ≤ s.queue.length)
  | _ => True

instance (s : State) (t : Instant) : ∀ task : Task, Decidable (task.MayWait s t)
  | .window _ => inferInstanceAs (Decidable (_ ≤ _))
  | .looping _ => inferInstanceAs (Decidable (∀ deadline ∈ s.heartbeat, t ≤ deadline))
  | .spawned _ => inferInstanceAs (Decidable (_ ≤ _))
  | .rearming _ => inferInstanceAs (Decidable (_ ≤ _))
  | .writing _ _ => inferInstanceAs (Decidable (_ ∨ _ ∧ _))
  | .finished => .isTrue trivial
  | .panicked => .isTrue trivial
  | .cancelled => .isTrue trivial

/-- What can be done is done before the clock goes on. -/
def Prompt (s : State) (a : Action) : Prop :=
  ∀ t, a = .clock t → s.task.MayWait s t

instance (s : State) : ∀ a : Action, Decidable (Prompt s a)
  | .clock t => decidable_of_iff (s.task.MayWait s t) (by simp [Prompt])
  | .timer => .isTrue fun _ h ↦ Action.noConfusion h
  | .start => .isTrue fun _ h ↦ Action.noConfusion h
  | .upstream _ => .isTrue fun _ h ↦ Action.noConfusion h
  | .item _ => .isTrue fun _ h ↦ Action.noConfusion h
  | .collected => .isTrue fun _ h ↦ Action.noConfusion h
  | .sent => .isTrue fun _ h ↦ Action.noConfusion h
  | .refused => .isTrue fun _ h ↦ Action.noConfusion h
  | .rearm => .isTrue fun _ h ↦ Action.noConfusion h
  | .recv => .isTrue fun _ h ↦ Action.noConfusion h
  | .disconnect => .isTrue fun _ h ↦ Action.noConfusion h

/-! ### A silence -/

/-- A silence that began at `b`, and no write since: a loop waits with a timer that is due an
interval after `b`, unless it skips its ticks. -/
def Task.Lull (g : Gateway) (b : ℤ) (s : State) : Task → Prop
  | .window _ => False
  | .spawned _ => s.now.nanos ≤ b
  | .rearming l => l.Open ∨ s.now.nanos ≤ b
  | .looping l => l.Open ∨ (s.now.nanos ≤ b + g.interval.nanos ∧
      ∃ deadline, s.heartbeat = some deadline ∧ deadline.nanos ≤ b + g.interval.nanos)
  | _ => True

section

variable {g : Gateway} {s s' : State} {a : Action} {b : ℤ}

/-- A task that writes or is over is in a lull of any beginning. -/
theorem Task.lull_of_loop? {t : Task} (h : t.loop? = none) : t.Lull g b s := by
  cases t with
  | finished => trivial
  | panicked => trivial
  | cancelled => trivial
  | writing frame next => trivial
  | _ => cases h

theorem onHeartbeat_lull {l : Loop} : l.onHeartbeat.Lull g b s := by
  cases l with
  | relaying tracker =>
    rw [Loop.onHeartbeat]
    split_ifs with hboundary
    · trivial
    · exact .inl (Bool.eq_false_iff.2 hboundary)
  | waiting => trivial
  | collecting status ce body => trivial

theorem onItem_lull (tracker : EventBoundaryTracker) (i : Item) :
    (onItem g tracker i).Lull g b s := by
  cases i with
  | chunk bytes =>
    rw [onItem, EventBoundaryTracker.feed_eq]
    trivial
  | failed e => exact Task.lull_of_loop? (announce_loop tracker _)
  | done => trivial

theorem onCollected_lull (status : StatusCode) (ce : Option Coding) (body : Incoming) :
    (onCollected g status ce body).Lull g b s := by
  rw [onCollected]
  split
  · trivial
  · trivial

/-- The next loop takes over the timer. -/
theorem bridge_lull (result : Except Str (Response Incoming))
    (hs : (Task.looping .waiting).Lull g b s) : (bridge g result).Lull g b s := by
  cases result with
  | error e => trivial
  | ok resp =>
    simp only [bridge, handleSuccess]
    split_ifs
    · split
      · exact Task.lull_of_loop? (announce_loop _ _)
      · exact .inr (hs.resolve_left id)
    · exact .inr (hs.resolve_left id)

/-- **A step other than a write keeps the lull**, if it is prompt. -/
theorem Step.lull (h : Step g s a s') (hprompt : Prompt s a) (ha : a ≠ .sent)
    (hs : s.task.Lull g b s) : s'.task.Lull g b s' := by
  have hpos := g.interval.nanos_nonneg
  cases h with
  | @clock t hle =>
    have hmay : s.task.MayWait s t := hprompt t rfl
    cases htask : s.task with
    | window deadline =>
      rw [htask] at hs
      exact hs.elim
    | spawned l =>
      rw [htask] at hs hmay
      exact Int.le_trans hmay hs
    | rearming l =>
      rw [htask] at hs hmay
      exact hs.imp_right (Int.le_trans hmay)
    | looping l =>
      rw [htask] at hs hmay
      refine hs.imp_right ?_
      rintro ⟨-, deadline, hset, hdue⟩
      exact ⟨Int.le_trans (hmay deadline hset) hdue, deadline, hset, hdue⟩
    | _ => trivial
  | elapse htask hdue =>
    rw [htask] at hs
    exact hs.elim
  | heartbeat htask hset hdue => exact onHeartbeat_lull
  | start htask =>
    rw [htask] at hs
    have hs : s.now.nanos ≤ b := hs
    have hle := sleep_le g.crates s.now g.interval
    exact .inr ⟨by simp only; omega, _, rfl, by omega⟩
  | answer htask =>
    rw [htask] at hs
    exact hs.elim
  | @bridge result htask =>
    rw [htask] at hs
    exact bridge_lull result hs
  | item htask => exact onItem_lull _ _
  | collected htask => exact onCollected_lull _ _ _
  | sent htask hconn hroom => exact absurd rfl ha
  | @refused frame next htask hconn => cases next <;> trivial
  | @rearm l deadline htask hreset =>
    rw [htask] at hs
    have hdeadline := nanos_of_reset hreset
    refine hs.imp_right fun hle ↦ ⟨by simp only; omega, deadline, rfl, by omega⟩
  | overflow htask hreset => trivial
  | recv hqueue hconn => exact hs
  | disconnect hconn =>
    cases htask : s.task with
    | window deadline => trivial
    | _ =>
      rw [htask] at hs
      exact hs

/-- It goes on like this. -/
theorem lull_run {as : List Action} (hprompt : Transition.AllSteps (step g) Prompt s as)
    (has : .sent ∉ as) (hs : s.task.Lull g b s)
    (hrun : Transition.run (step g) s as = some s') : s'.task.Lull g b s' := by
  have hboth : Transition.AllSteps (step g) (fun s a ↦ Prompt s a ∧ a ≠ .sent) s as :=
    hprompt.imp fun s a ha h ↦ ⟨h, fun heq ↦ has (heq ▸ ha)⟩
  exact hboth.invariant (I := fun s ↦ s.task.Lull g b s) hs
    (fun s a s' ih h hstep ↦ (Step.of_step hstep).lull h.1 h.2 ih) hrun

/-- A lull that has lasted for longer than an interval: the task is writing or over, or it skips its
ticks. -/
theorem Task.Lull.cases (hs : s.task.Lull g b s) :
    s.task.Over ∨ (∃ frame next, s.task = .writing frame next) ∨
      (∃ l, s.task.loop? = some l ∧ l.Open) ∨ s.now.nanos ≤ b + g.interval.nanos := by
  have hpos := g.interval.nanos_nonneg
  cases htask : s.task with
  | window deadline =>
    rw [htask] at hs
    exact hs.elim
  | spawned l =>
    rw [htask] at hs
    have hs : s.now.nanos ≤ b := hs
    exact .inr (.inr (.inr (by omega)))
  | looping l =>
    rw [htask] at hs
    exact .inr (.inr (hs.imp (fun hopen ↦ ⟨l, rfl, hopen⟩) And.left))
  | rearming l =>
    rw [htask] at hs
    exact .inr (.inr (hs.imp (fun hopen ↦ ⟨l, rfl, hopen⟩) fun hle ↦ by omega))
  | writing frame next => exact .inr (.inl ⟨frame, next, rfl⟩)
  | finished => exact .inl trivial
  | panicked => exact .inl trivial
  | cancelled => exact .inl trivial

/-- A silence begins with a write, or with the head of the response. -/
def Begins (s : State) : Action → Prop
  | .sent => True
  | .timer => ∃ deadline, s.task = .window deadline
  | .upstream _ => ∃ deadline, s.task = .window deadline
  | _ => False

theorem Step.lull_of_begins (h : Step g s a s') (hbegins : Begins s a) :
    s'.task.Lull g s.now.nanos s' := by
  cases h with
  | elapse htask hdue => exact Int.le_refl _
  | heartbeat htask hset hdue =>
    obtain ⟨deadline, hwindow⟩ := hbegins
    rw [htask] at hwindow
    cases hwindow
  | @answer deadline result htask =>
    rcases answer_cases g result with heq | heq
    · rw [heq]
      exact Int.le_refl _
    · rw [heq]
      trivial
  | bridge htask =>
    obtain ⟨deadline, hwindow⟩ := hbegins
    rw [htask] at hwindow
    cases hwindow
  | @sent frame next htask hconn hroom =>
    cases next with
    | rearm l => exact .inr (Int.le_refl _)
    | closing ev => trivial
    | finish => trivial
  | _ => exact hbegins.elim

end

/-! ### Runs -/

section

variable {g : Gateway} {parts : Parts} {body : Bytes} {now : Instant} {s₀ s : State}
  {as : List Action}

/-- The window is open, and closes by `b`. -/
def State.Awaits (s : State) (b : ℤ) : Prop :=
  s.now.nanos ≤ b ∧ ∃ deadline, s.task = .window deadline ∧ deadline.nanos ≤ b

/-- While there is no head of a response for the client, the window is open. -/
theorem Step.awaits {s' : State} {a : Action} {b : ℤ} (h : Step g s a s') (hprompt : Prompt s a)
    (hs : s.connected = true → s.reply = none → s.Awaits b) (hconn : s'.connected = true)
    (hreply : s'.reply = none) : s'.Awaits b := by
  cases h with
  | @clock t hle =>
    obtain ⟨-, deadline, htask, hdue⟩ := hs hconn hreply
    have hmay : s.task.MayWait s t := hprompt t rfl
    rw [htask] at hmay
    exact ⟨Int.le_trans hmay hdue, deadline, htask, hdue⟩
  | elapse htask hdue => cases hreply
  | answer htask => cases hreply
  | recv hqueue hconn' => exact hs hconn hreply
  | disconnect hconn' => cases hconn
  | heartbeat htask | start htask | bridge htask | item htask | collected htask | sent htask
  | refused htask | rearm htask | overflow htask =>
    -- past the window there is a head
    obtain ⟨-, deadline, hwindow, -⟩ := hs hconn hreply
    rw [htask] at hwindow
    cases hwindow

theorem awaits_run (h₀ : handleStream g parts body now = some s₀)
    (hprompt : Transition.AllSteps (step g) Prompt s₀ as)
    (hrun : Transition.run (step g) s₀ as = some s) (hconn : s.connected = true)
    (hreply : s.reply = none) : s.Awaits (now.nanos + g.interval.nanos) := by
  have hpos := g.interval.nanos_nonneg
  refine hprompt.invariant (I := fun s ↦ s.connected = true → s.reply = none →
    s.Awaits (now.nanos + g.interval.nanos)) (fun _ _ ↦ ?_)
    (fun s a s' ih h hstep ↦ (Step.of_step hstep).awaits h ih) hrun hconn hreply
  obtain ⟨req, -, hs⟩ := Option.bind_eq_some_iff.1 h₀
  obtain rfl := Option.some.inj hs
  exact ⟨by simp only; omega, _, rfl, sleep_le g.crates now g.interval⟩

/-- **Silence does not last.** In a prompt run the head of the response is there an interval after
the request at the latest. And an interval after a write, or after the head, there is another write,
unless the task is over or the bytes of the upstream so far leave something open. -/
theorem silence_le (h₀ : handleStream g parts body now = some s₀)
    (hprompt : Transition.AllSteps (step g) Prompt s₀ as)
    (hrun : Transition.run (step g) s₀ as = some s) :
    (s.connected = true → s.reply = none → s.now.nanos ≤ now.nanos + g.interval.nanos) ∧
      ∀ p a q s₁, as = p ++ a :: q → Transition.run (step g) s₀ p = some s₁ → Begins s₁ a →
        .sent ∉ q →
        s.task.Over ∨ (∃ frame next, s.task = .writing frame next) ∨
          ¬Settled (yielded as).flatten ∨ s.now.nanos ≤ s₁.now.nanos + g.interval.nanos := by
  refine ⟨fun hconn hreply ↦ (awaits_run h₀ hprompt hrun hconn hreply).1,
    fun p a q s₁ has hp hbegins hq ↦ ?_⟩
  have hwatched := watched_run h₀ hrun
  subst has
  have hrest := hprompt.of_append hp
  rw [Transition.run_append, hp, Option.bind_some, Transition.run, Option.bind_eq_some_iff] at hrun
  obtain ⟨s₂, hstep, hq'⟩ := hrun
  have hlull := lull_run ((Transition.allSteps_cons.1 hrest).2 s₂ hstep) hq
    ((Step.of_step hstep).lull_of_begins hbegins) hq'
  refine hlull.cases.imp_right (Or.imp_right (Or.imp_left ?_))
  rintro ⟨l, hl, hopen⟩
  exact (hwatched l hl).not_settled hopen

end

/-- A slow upstream answers after the first heartbeat, sends an event and falls silent. -/
def steadyRun : List Action := [
  .clock (second 60), .timer, .start,
  .clock (second 120), .timer, .sent, .rearm,
  .upstream (.ok eventStream), .item (.chunk (utf8 "data: a\n\n".toList)), .sent, .rearm,
  .clock (second 180)]

theorem steadyRun_spec :
    ∃ s₀ s₁ s l, handleStream .reference (chatRequest ⟨utf8 "keep-alive".toList, by decide⟩) []
        (second 0) = some s₀ ∧
      Transition.run (step .reference) s₀ (steadyRun.take 9) = some s₁ ∧
      Transition.run (step .reference) s₀ steadyRun = some s ∧
      Transition.AllSteps (step .reference) Prompt s₀ steadyRun ∧ s.task = .looping l :=
  ⟨_, _, _, _, rfl, rfl, rfl, by decide, rfl⟩

/-- The next heartbeat is due an interval after the event. -/
theorem silence_le_steady :
    ∃ s₀ s₁ s, handleStream .reference (chatRequest ⟨utf8 "keep-alive".toList, by decide⟩) []
        (second 0) = some s₀ ∧
      Transition.run (step .reference) s₀ (steadyRun.take 9) = some s₁ ∧
      Transition.run (step .reference) s₀ steadyRun = some s ∧
      s.now.nanos ≤ s₁.now.nanos + Gateway.reference.interval.nanos := by
  obtain ⟨s₀, s₁, s, l, h₀, hp, hrun, hprompt, htask⟩ := steadyRun_spec
  refine ⟨s₀, s₁, s, h₀, hp, hrun, ?_⟩
  have hcases := (silence_le h₀ hprompt hrun).2 (steadyRun.take 9) .sent
    [.rearm, .clock (second 180)] s₁ rfl hp trivial (by simp)
  have hsettled : Settled (yielded steadyRun).flatten := by decide +kernel
  simpa [htask, Task.Over, hsettled] using hcases

end KeepSse.Sse
