import KeepSse.Sse.Silence

/-!
# The task goes on, and holds little

Two things that hold in every state of every run, whatever the client and the upstream do. The task
is never stuck (`never_stuck`): unless it is over, it does something within an interval, and for
that it needs the clock, the runtime and a client who takes a frame, but not the upstream. And it
buffers a fixed number of frames (`lag_le`): all chunks but the last few have been taken by the
client, in order, with the heartbeats between them.

## What each result rests on

* `never_stuck` rests on one property of states: a loop never waits without a timer, and the timer
  is due within an interval (`Sound.armed`, `Sound.window`). No run is looked at. From a sound state
  the task takes a step after at most one other action (`Sound.goes_on`), and every state of every
  run is sound (`sound_run`).
* `lag_le` rests on the refinement, which says that what has been received, what is in the channel
  and what the task owes make up a word of the course. The channel has a capacity (`Sound.room`),
  and a task owes one frame, or two if it has an error to report (`owed_length_le`). So the word
  cannot be far ahead of the client; and the beginning of a woven word is woven from the first of
  its chunks (`Woven.of_append`).

The two frames of an error are the blank line that closes an event and the error event. They are
owed only on a course that broke off (`State.ClosesBroken`), and neither of them is a chunk: this is
why the bound on chunks is one more than the capacity and not two.
-/

namespace KeepSse.Sse

open Text Http EventStream

/-- The task is over. -/
def Task.Over : Task → Prop
  | .finished => True
  | .panicked => True
  | .cancelled => True
  | _ => False

/-! ### Sound states -/

/-- What holds of the task, its timer and its channel in every state. -/
structure Sound (g : Gateway) (s : State) : Prop where
  /-- The channel holds no more than it can. -/
  room : s.queue.length ≤ capacity
  /-- A channel whose receiver is gone holds nothing. -/
  gone : s.connected = false → s.queue = []
  /-- A loop waits with a timer that is due within an interval. -/
  armed : ∀ l, s.task = .looping l → ∃ deadline, s.heartbeat = some deadline ∧
    deadline.nanos ≤ s.now.nanos + g.interval.nanos
  /-- The window closes within an interval. -/
  window : ∀ deadline, s.task = .window deadline →
    deadline.nanos ≤ s.now.nanos + g.interval.nanos

theorem Task.Acts.ne_looping {t : Task} (h : t.Acts) (l : Loop) : t ≠ .looping l := by
  rintro rfl
  exact h

theorem Task.Acts.ne_window {t : Task} (h : t.Acts) (deadline : Instant) :
    t ≠ .window deadline := by
  rintro rfl
  exact h

section

variable {g : Gateway} {s s' : State} {a : Action}

/-- A step to a task that does not wait keeps what holds of the channel. -/
theorem Sound.act (h : Sound g s) {t : Task} (ht : t.Acts) : Sound g { s with task := t } where
  room := h.room
  gone := h.gone
  armed l htask := absurd htask (ht.ne_looping l)
  window deadline htask := absurd htask (ht.ne_window deadline)

/-- **Every step keeps a state sound.** -/
theorem Step.sound (h : Step g s a s') (hs : Sound g s) : Sound g s' := by
  cases h with
  | @clock t hle =>
    have hle : s.now.nanos ≤ t.nanos := hle
    refine ⟨hs.room, hs.gone, fun l htask ↦ ?_, fun deadline htask ↦ ?_⟩
    · obtain ⟨deadline, hset, hdue⟩ := hs.armed l htask
      exact ⟨deadline, hset, by simp only; omega⟩
    · have hdue := hs.window deadline htask
      simp only
      omega
  | elapse htask hdue =>
    exact ⟨hs.room, hs.gone, fun l h ↦ Task.noConfusion h, fun deadline h ↦ Task.noConfusion h⟩
  | heartbeat htask hset hdue => exact hs.act (onHeartbeat_acts _)
  | start htask =>
    exact ⟨hs.room, hs.gone, fun l h ↦ ⟨_, rfl, sleep_le g.crates s.now g.interval⟩,
      fun deadline h ↦ Task.noConfusion h⟩
  | @answer deadline result htask =>
    refine ⟨hs.room, hs.gone, fun l h ↦ ?_, fun deadline h ↦ ?_⟩
    · rcases answer_cases g result with heq | heq
      · exact Task.noConfusion (heq.symm.trans h)
      · exact Task.noConfusion (heq.symm.trans h)
    · rcases answer_cases g result with heq | heq
      · exact Task.noConfusion (heq.symm.trans h)
      · exact Task.noConfusion (heq.symm.trans h)
  | @bridge result htask =>
    rcases bridge_cases g result with hacts | ⟨l, heq⟩
    · exact hs.act hacts
    · -- the next loop takes over the timer
      rw [heq]
      exact ⟨hs.room, hs.gone, fun l' _ ↦ hs.armed _ htask, fun deadline h ↦ Task.noConfusion h⟩
  | item htask => exact hs.act (onItem_acts g _ _)
  | collected htask => exact hs.act (onCollected_acts g _ _ _)
  | @sent frame next htask hconn hroom =>
    refine ⟨?_, fun hgone ↦ ?_, fun l h ↦ absurd h (next.sent_acts.ne_looping l),
      fun deadline h ↦ absurd h (next.sent_acts.ne_window deadline)⟩
    · rw [List.length_append]
      exact hroom
    · rw [hconn] at hgone
      exact Bool.noConfusion hgone
  | refused htask hconn => exact hs.act (Next.refused_acts _)
  | rearm htask hreset =>
    exact ⟨hs.room, hs.gone, fun l h ↦ ⟨_, rfl, Int.le_of_eq (nanos_of_reset hreset)⟩,
      fun deadline h ↦ Task.noConfusion h⟩
  | overflow htask hreset =>
    exact ⟨hs.room, hs.gone, fun l h ↦ Task.noConfusion h, fun deadline h ↦ Task.noConfusion h⟩
  | @recv frame queue hqueue hconn =>
    have hroom := hs.room
    rw [hqueue, List.length_cons] at hroom
    refine ⟨by simp only; omega, fun hgone ↦ ?_, hs.armed, hs.window⟩
    have hgone : s.connected = false := hgone
    rw [hconn] at hgone
    exact Bool.noConfusion hgone
  | disconnect hconn =>
    refine ⟨Nat.zero_le _, fun _ ↦ rfl, fun l h ↦ ?_, fun deadline h ↦ ?_⟩
    · cases htask : s.task with
      | looping l' => exact hs.armed l' htask
      | _ =>
        rw [htask] at h
        cases h
    · cases htask : s.task with
      | _ =>
        rw [htask] at h
        cases h

end

/-- **Every state of every run is sound.** -/
theorem sound_run {g : Gateway} {parts : Parts} {body : Bytes} {now : Instant} {s₀ s : State}
    {as : List Action} (h₀ : handleStream g parts body now = some s₀)
    (hrun : Transition.run (step g) s₀ as = some s) : Sound g s := by
  refine Transition.run_induction (P := fun _ s ↦ Sound g s) ?_
    (fun _ _ _ _ _ ih hstep ↦ (Step.of_step hstep).sound ih) hrun
  obtain ⟨req, -, hs⟩ := Option.bind_eq_some_iff.1 h₀
  obtain rfl := Option.some.inj hs
  refine ⟨Nat.zero_le _, fun _ ↦ rfl, fun l h ↦ Task.noConfusion h, fun deadline h ↦ ?_⟩
  rw [← Task.window.inj h]
  exact sleep_le g.crates now g.interval

/-! ### The task goes on -/

/-- The actions of the clock, the runtime and a client who takes a frame. The upstream and its
stream have no part in them. -/
def Action.Unaided : Action → Prop
  | .upstream _ => False
  | .item _ => False
  | .collected => False
  | .disconnect => False
  | _ => True

section

variable {g : Gateway} {s : State}

/-- A due moment can be waited for, and within an interval if it is that near. -/
theorem exists_clock {deadline : Instant}
    (hdue : deadline.nanos ≤ s.now.nanos + g.interval.nanos) :
    ∃ t, step g s (.clock t) = some { s with now := t } ∧ deadline ≤ t ∧
      t.nanos ≤ s.now.nanos + g.interval.nanos := by
  have hpos := g.interval.nanos_nonneg
  by_cases hle : s.now ≤ deadline
  · exact ⟨deadline, if_pos hle, Int.le_refl _, hdue⟩
  · have hlt : ¬s.now.nanos ≤ deadline.nanos := hle
    refine ⟨s.now, if_pos (Int.le_refl _), ?_, by omega⟩
    show deadline.nanos ≤ s.now.nanos
    omega

theorem Next.sent_ne_writing (frame : Bytes) (next : Next) :
    next.sent ≠ .writing frame next := by
  cases next <;> simp [Next.sent]

theorem Next.refused_ne_writing (frame : Bytes) (next : Next) :
    next.refused ≠ .writing frame next := by
  cases next <;> simp [Next.refused]

/-- From a sound state the task takes a step, after at most one other action. -/
theorem Sound.goes_on (hs : Sound g s) (hover : ¬s.task.Over) :
    ∃ bs s', (∀ a ∈ bs, a.Unaided) ∧ bs.length ≤ 2 ∧
      Transition.run (step g) s bs = some s' ∧ s'.task ≠ s.task ∧
      s'.now.nanos ≤ s.now.nanos + g.interval.nanos := by
  have hpos : s.now.nanos ≤ s.now.nanos + g.interval.nanos :=
    Int.le_add_of_nonneg_right g.interval.nanos_nonneg
  cases htask : s.task with
  | window deadline =>
    obtain ⟨t, hclock, hdue, hle⟩ := exists_clock (hs.window deadline htask)
    refine ⟨[.clock t, .timer], { s with
        now := t
        task := .spawned .waiting
        reply := some keepaliveResponse },
      by simp [Action.Unaided], Nat.le_refl _, Transition.run_pair hclock ?_, by simp, hle⟩
    simp [step, htask, hdue]
  | spawned l =>
    refine ⟨[.start], { s with
        task := .looping l
        heartbeat := some (g.crates.sleep s.now g.interval) },
      by simp [Action.Unaided], by simp, Transition.run_singleton ?_, by simp, hpos⟩
    simp only [step, htask]
  | looping l =>
    obtain ⟨deadline, hset, hnear⟩ := hs.armed l htask
    obtain ⟨t, hclock, hdue, hle⟩ := exists_clock hnear
    refine ⟨[.clock t, .timer], { s with now := t, task := l.onHeartbeat },
      by simp [Action.Unaided], Nat.le_refl _, Transition.run_pair hclock ?_,
      (onHeartbeat_acts l).ne_looping l, hle⟩
    simp [step, htask, hset, hdue]
  | rearming l =>
    cases hreset : s.now.reset g.interval with
    | some deadline =>
      refine ⟨[.rearm], { s with task := .looping l, heartbeat := some deadline },
        by simp [Action.Unaided], by simp, Transition.run_singleton ?_, by simp, hpos⟩
      simp only [step, htask, hreset]
    | none =>
      refine ⟨[.rearm], { s with task := .panicked }, by simp [Action.Unaided], by simp,
        Transition.run_singleton ?_, by simp, hpos⟩
      simp only [step, htask, hreset]
  | writing frame next =>
    cases hconn : s.connected with
    | false =>
      refine ⟨[.refused], { s with task := next.refused }, by simp [Action.Unaided], by simp,
        Transition.run_singleton ?_, next.refused_ne_writing frame, hpos⟩
      simp [step, htask, hconn]
    | true =>
      by_cases hroom : s.queue.length < capacity
      · refine ⟨[.sent], { s with task := next.sent, queue := s.queue ++ [frame] },
          by simp [Action.Unaided], by simp, Transition.run_singleton ?_,
          next.sent_ne_writing frame, hpos⟩
        simp [step, htask, hconn, hroom]
      · -- the channel is full, so the client has a frame to take
        cases hqueue : s.queue with
        | nil =>
          rw [hqueue] at hroom
          exact absurd (by decide) hroom
        | cons first queue =>
          have hle : queue.length < capacity := by
            have := hs.room
            rw [hqueue, List.length_cons] at this
            omega
          have hrecv : step g s .recv =
              some { s with queue := queue, received := s.received ++ [first] } := by
            simp [step, hqueue, hconn]
          refine ⟨[.recv, .sent], { s with
              task := next.sent
              queue := queue ++ [frame]
              received := s.received ++ [first] },
            by simp [Action.Unaided], Nat.le_refl _, Transition.run_pair hrecv ?_,
            next.sent_ne_writing frame, hpos⟩
          simp [step, htask, hconn, hle]
  | finished =>
    rw [htask] at hover
    exact absurd trivial hover
  | panicked =>
    rw [htask] at hover
    exact absurd trivial hover
  | cancelled =>
    rw [htask] at hover
    exact absurd trivial hover

/-- **The task is never stuck.** In every state that a run can reach, the task is over or goes on
within an interval, and the upstream need not do anything for it. -/
theorem never_stuck {parts : Parts} {body : Bytes} {now : Instant} {s₀ : State} {as : List Action}
    (h₀ : handleStream g parts body now = some s₀)
    (hrun : Transition.run (step g) s₀ as = some s) :
    s.task.Over ∨ ∃ bs s', (∀ a ∈ bs, a.Unaided) ∧ bs.length ≤ 2 ∧
      Transition.run (step g) s bs = some s' ∧ s'.task ≠ s.task ∧
      s'.now.nanos ≤ s.now.nanos + g.interval.nanos := by
  by_cases hover : s.task.Over
  · exact .inl hover
  · exact .inr ((sound_run h₀ hrun).goes_on hover)

end

/-- Kept waiting by a silent upstream, the task goes on by itself. -/
theorem never_stuck_ticking :
    ∃ s₀ s, handleStream .reference (chatRequest ⟨utf8 "keep-alive".toList, by decide⟩) []
        (second 0) = some s₀ ∧
      Transition.run (step .reference) s₀ tickingRun = some s ∧
      ∃ bs s', (∀ a ∈ bs, a.Unaided) ∧ bs.length ≤ 2 ∧
        Transition.run (step .reference) s bs = some s' ∧ s'.task ≠ s.task ∧
        s'.now.nanos ≤ s.now.nanos + Gateway.reference.interval.nanos := by
  obtain ⟨s₀, s, l, h₀, hrun, htask⟩ :
      ∃ s₀ s l, handleStream .reference (chatRequest ⟨utf8 "keep-alive".toList, by decide⟩) []
          (second 0) = some s₀ ∧
        Transition.run (step .reference) s₀ tickingRun = some s ∧ s.task = .looping l :=
    ⟨_, _, _, rfl, rfl, rfl⟩
  refine ⟨s₀, s, h₀, hrun, (never_stuck h₀ hrun).resolve_left ?_⟩
  rw [htask]
  exact id

/-! ### The task holds little -/

section

variable {g : Gateway} {s s' : State} {a : Action}

/-- Only a stream that broke off is closed by a frame of its own. -/
def State.ClosesBroken (s : State) (c : Course) : Prop :=
  ∀ frame ev, s.task = .writing frame (.closing ev) → ∃ cs e, c = .broken cs e

theorem announce_new_ne_closing (ev frame ev' : Bytes) :
    announce .new ev ≠ .writing frame (.closing ev') := by
  simp [announce, EventBoundaryTracker.new]

/-- A step to a frame that closes is a stream error. -/
theorem Step.closesBroken {c : Course} (h : Step g s a s') (hfits : s.task.Fits s.connected c)
    (hs : s.ClosesBroken c) : s'.ClosesBroken (c.next g a) := by
  intro frame ev htask'
  cases h with
  | @clock t hle =>
    have hnext : c.next g (.clock t) = c := c.next_of_inert (.clock t) trivial
    rw [hnext]
    exact hs frame ev htask'
  | elapse htask hdue => cases htask'
  | @heartbeat l deadline htask hset hdue =>
    simp only [Loop.onHeartbeat] at htask'
    split at htask'
    · split_ifs at htask'
      simp at htask'
    · simp at htask'
  | start htask => cases htask'
  | @answer deadline result htask =>
    rcases answer_cases g result with heq | heq
    · rw [heq] at htask'
      cases htask'
    · rw [heq] at htask'
      cases htask'
  | @bridge result htask =>
    cases result with
    | error e => simp [Sse.bridge] at htask'
    | ok resp =>
      simp only [Sse.bridge, handleSuccess] at htask'
      split_ifs at htask'
      split at htask'
      · exact absurd htask' (announce_new_ne_closing _ _ _)
      · cases htask'
  | @item tracker i htask =>
    rw [htask] at hfits
    obtain ⟨cs, rfl, -⟩ := hfits
    cases i with
    | chunk b =>
      simp only [onItem, EventBoundaryTracker.feed_eq, Task.writing.injEq, reduceCtorEq,
        and_false] at htask'
    | failed e => exact ⟨cs, e, rfl⟩
    | done => cases htask'
  | @collected status ce body htask =>
    simp only [onCollected] at htask'
    split at htask'
    · simp at htask'
    · cases htask'
  | @sent frame next htask hconn hroom =>
    cases next <;> simp [Next.sent] at htask'
  | @refused frame next htask hconn =>
    cases next <;> simp [Next.refused] at htask'
  | rearm htask hreset => cases htask'
  | overflow htask hreset => cases htask'
  | recv hqueue hconn =>
    have hnext : c.next g .recv = c := c.next_of_inert .recv trivial
    rw [hnext]
    exact hs frame ev htask'
  | disconnect hconn =>
    have hnext : c.next g .disconnect = c := c.next_of_inert .disconnect trivial
    rw [hnext]
    cases htask : s.task with
    | writing frame' next =>
      rw [htask] at htask'
      exact hs frame ev (htask.trans htask')
    | _ =>
      rw [htask] at htask'
      cases htask'

variable {parts : Parts} {body : Bytes} {now : Instant} {s₀ : State} {as : List Action}

theorem closesBroken_run (h₀ : handleStream g parts body now = some s₀)
    (hrun : Transition.run (step g) s₀ as = some s) : s.ClosesBroken (Course.of g as) := by
  refine Transition.run_induction (P := fun as s ↦ s.ClosesBroken (Course.of g as)) ?_ ?_ hrun
  · obtain ⟨req, -, hs⟩ := Option.bind_eq_some_iff.1 h₀
    obtain rfl := Option.some.inj hs
    intro frame ev htask
    cases htask
  · intro as a s s' hs ih hstep
    rw [Course.of_concat]
    exact (Step.of_step hstep).closesBroken (refines_run h₀ hs).fits ih

/-- A word is woven from the chunks of its course, up to what reports an error. -/
theorem Course.Word.exists_woven {c : Course} {w : List Bytes} (h : c.Word g w) :
    ∃ w₀ tail, w = w₀ ++ tail ∧ Woven heartbeat c.chunks w₀ ∧
      ((∃ cs e, c = .broken cs e) → 1 ≤ tail.length) := by
  cases c with
  | broken cs e =>
    obtain ⟨w₀, close, hw₀, -, rfl⟩ := h
    exact ⟨w₀, _, List.append_assoc _ _ _, hw₀, fun _ ↦ by simp⟩
  | rejected status body reason =>
    obtain ⟨w₀, hw₀, rfl⟩ := h
    exact ⟨w₀, _, rfl, hw₀, fun _ ↦ by simp⟩
  | pending => exact ⟨[], [], h, .nil, by simp⟩
  | refused e => exact ⟨[], [], h, .nil, by simp⟩
  | passedOn resp => exact ⟨[], [], h, .nil, by simp⟩
  | waiting => exact ⟨w, [], by simp, h, by simp⟩
  | relaying cs => exact ⟨w, [], by simp, h, by simp⟩
  | ended cs => exact ⟨w, [], by simp, h, by simp⟩
  | collecting status ce body => exact ⟨w, [], by simp, h, by simp⟩

/-- What the task owes is one frame, and one more if an error has to be reported. -/
theorem owed_length_le (h₀ : handleStream g parts body now = some s₀)
    (hrun : Transition.run (step g) s₀ as = some s) {tail : List Bytes}
    (htail : (∃ cs e, Course.of g as = .broken cs e) → 1 ≤ tail.length) :
    s.task.owed.length ≤ tail.length + 1 := by
  cases htask : s.task with
  | writing frame next =>
    cases next with
    | closing ev =>
      have := htail (closesBroken_run h₀ hrun frame ev htask)
      simp only [Task.owed, Next.owed, List.length_cons, List.length_nil]
      omega
    | _ => simp [Task.owed, Next.owed]
  | _ => simp [Task.owed]

/-- **A stream is relayed in step with its client.** However slow the client is, all but the last
seventeen chunks that the upstream stream has yielded have been received, in order and with
heartbeats only where no event is open; and if any are left, nothing else has been received. -/
theorem lag_le (h₀ : handleStream g parts body now = some s₀)
    (hrun : Transition.run (step g) s₀ as = some s) (hconn : s.connected = true) :
    s.queue.length ≤ capacity ∧
      ∃ k r, Woven heartbeat ((yielded as).take k) r ∧ r <+: s.received ∧
        (yielded as).length ≤ k + (capacity + 1) ∧
        (r = s.received ∨ (yielded as).length ≤ k) := by
  have hroom := (sound_run h₀ hrun).room
  refine ⟨hroom, ?_⟩
  obtain ⟨w₀, tail, hw, hwoven, htail⟩ := ((refines_run h₀ hrun).word hconn).exists_woven
  have howed := owed_length_le h₀ hrun htail
  rw [chunks_run h₀ hrun] at hwoven
  rw [List.append_assoc] at hw
  rcases List.append_eq_append_iff.1 hw with ⟨w₁, rfl, hrest⟩ | ⟨w₁, hreceived, -⟩
  · -- part of the chunks are on their way
    obtain ⟨k, hk, hle⟩ := hwoven.of_append
    have hlength := congrArg List.length hrest
    rw [List.length_append, List.length_append] at hlength
    exact ⟨k, s.received, hk, List.prefix_rfl, by omega, .inl rfl⟩
  · -- the client has all of them
    refine ⟨(yielded as).length, w₀, by rwa [List.take_length], ?_, by omega, .inr (Nat.le_refl _)⟩
    rw [hreceived]
    exact List.prefix_append _ _

end

/-- A stream of twenty chunks, of which the client takes three. -/
def slowRun : List Action :=
  [.upstream (.ok eventStream), .start] ++
    (List.replicate 3 [.item chunk, .sent, .rearm, .recv]).flatten ++
      (List.replicate 16 [.item chunk, .sent, .rearm]).flatten ++ [.item chunk]
where
  chunk : Item := .chunk (utf8 "data: a\n\n".toList)

theorem slowRun_spec :
    ∃ s₀ s, handleStream .reference (chatRequest ⟨utf8 "keep-alive".toList, by decide⟩) []
        (second 0) = some s₀ ∧
      Transition.run (step .reference) s₀ slowRun = some s ∧ s.connected = true ∧
      s.received.length = 3 ∧ s.queue.length = 16 ∧ (yielded slowRun).length = 20 :=
  ⟨_, _, rfl, rfl, rfl, rfl, rfl, rfl⟩

/-- Sixteen frames wait in the channel, and one with the task: no more can be on the way. -/
theorem lag_le_slow :
    ∃ s₀ s, handleStream .reference (chatRequest ⟨utf8 "keep-alive".toList, by decide⟩) []
        (second 0) = some s₀ ∧
      Transition.run (step .reference) s₀ slowRun = some s ∧ s.received.length = 3 ∧
      s.queue.length ≤ capacity ∧ (yielded slowRun).length = 3 + (capacity + 1) ∧
      ∃ k r, Woven heartbeat ((yielded slowRun).take k) r ∧ r <+: s.received ∧
        (yielded slowRun).length ≤ k + (capacity + 1) ∧
        (r = s.received ∨ (yielded slowRun).length ≤ k) := by
  obtain ⟨s₀, s, h₀, hrun, hconn, hreceived, -, hyielded⟩ := slowRun_spec
  have hlag := lag_le h₀ hrun hconn
  exact ⟨s₀, s, h₀, hrun, hreceived, hlag.1, hyielded, hlag.2⟩

end KeepSse.Sse
