import KeepSse.Sse.Course
import KeepSse.Transition

/-!
# The machine takes its course

The state machine of `Sse.Task` refines the courses of `Sse.Course`: along every run, what has been
sent is a word of the run's course, or the beginning of one (`Refines`, `refines_run`). The shape of
a run in the terms of a client follows from that (`handleStream_run_shape`).

## What is owed

The invariant speaks about the frames that the task still **owes**: the frame that it is writing,
and the error event that comes after a blank line. While the client is there, what it has received,
what is in the channel and what is owed make up a word. So a task that has come to its end has sent
all of it. Once the client is gone, what it had received stays the beginning of a word, because
words only grow (`Course.exists_word_next`).

## Control

Control fits the course (`Task.Fits`): a loop is only ever run on its own course, and the tracker of
the relaying loop tracks a reader of the chunks of that course. This is where the tracker comes in:
a heartbeat continues a word because the tracker is at a boundary, and at a boundary no event is
open (`Tracks`, `onHeartbeat_fits`).

There is a lemma for each place where the code branches (`onHeartbeat_fits`, `answer_fits`,
`bridge_fits`, `onItem_fits`, `onCollected_fits`), and the step lemma (`Refines.step`) only puts
them together. The chunks of a course are what the stream has yielded (`chunks_run`), and the one
request is that of the beginning (`requests_run`).
-/

namespace KeepSse.Sse

open Text Http EventStream

/-! ### What is owed -/

/-- The frames that follow a write. -/
def Next.owed : Next → List Bytes
  | .rearm _ => []
  | .closing ev => [ev]
  | .finish => []

/-- The frames that the task is bound to write. -/
def Task.owed : Task → List Bytes
  | .writing frame next => frame :: next.owed
  | _ => []

@[simp] theorem Next.owed_sent (next : Next) : next.sent.owed = next.owed := by
  cases next <;> rfl

/-! ### Control -/

/-- A loop runs on its own course. -/
def Loop.Fits : Loop → Course → Prop
  | .waiting, c => c = .waiting
  | .relaying tracker, c => ∃ cs, c = .relaying cs ∧
      EventBoundaryTracker.Tracks tracker (Reader.start.feed cs.flatten)
  | .collecting status ce body, c => c = .collecting status ce body

/-- Where the task is fits the course. A task that ends while the client is there has come to the
end of its course. -/
def Task.Fits (connected : Bool) : Task → Course → Prop
  | .window _, c => c = .pending
  | .spawned l, c => l.Fits c
  | .looping l, c => l.Fits c
  | .rearming l, c => l.Fits c
  | .writing _ (.rearm l), c => l.Fits c
  | .writing _ (.closing _), c => c.Final
  | .writing _ .finish, c => c.Final
  | .finished, c => connected = true → c.Final
  | .panicked, _ => True
  | .cancelled, _ => True

/-- No loop runs before the window is over. -/
theorem Loop.Fits.ne_pending {l : Loop} {c : Course} (h : l.Fits c) : c ≠ .pending := by
  rintro rfl
  cases l with
  | waiting => cases h
  | relaying tracker =>
    obtain ⟨cs, hc, -⟩ := h
    cases hc
  | collecting status ce body => cases h

theorem Next.fits_sent {frame : Bytes} {next : Next} {c : Course} {connected : Bool}
    (h : (Task.writing frame next).Fits connected c) : next.sent.Fits connected c := by
  cases next with
  | rearm l => exact h
  | closing ev => exact h
  | finish => exact fun _ ↦ h

theorem Next.fits_refused {frame : Bytes} {next : Next} {c : Course}
    (h : (Task.writing frame next).Fits false c) : next.refused.Fits false c := by
  cases next with
  | rearm l => exact fun hconn ↦ nomatch hconn
  | closing ev => exact h
  | finish => exact fun _ ↦ h

theorem Task.fits_disconnected {t : Task} {c : Course} (h : t.Fits true c) :
    t.disconnected.Fits false c := by
  cases t with
  | window deadline => trivial
  | spawned l => exact h
  | looping l => exact h
  | rearming l => exact h
  | writing frame next =>
    cases next with
    | rearm l => exact h
    | closing ev => exact h
    | finish => exact h
  | finished => exact fun hconn ↦ nomatch hconn
  | panicked => trivial
  | cancelled => trivial

/-! ### The branches of the code -/

section

variable (g : Gateway) (connected : Bool)

/-- A task that owes nothing adds nothing to a word. -/
theorem word_append_nil {g : Gateway} (c : Course) (w : List Bytes) :
    c.Word g (w ++ []) ↔ c.Word g w := by
  rw [List.append_nil]

private theorem blank_eq : blankLine = [lineFeed, lineFeed] := by decide

/-- A heartbeat continues a word, since it is skipped while an event is open. -/
theorem onHeartbeat_fits {l : Loop} {c : Course} (hl : l.Fits c) :
    l.onHeartbeat.Fits connected c ∧
      ∀ w, c.Word g w → c.Word g (w ++ l.onHeartbeat.owed) := by
  cases l with
  | waiting =>
    obtain rfl := hl
    exact ⟨rfl, fun w hw ↦ Woven.frame hw ⟨rfl, rfl⟩⟩
  | relaying tracker =>
    obtain ⟨cs, rfl, htracks⟩ := hl
    rw [Loop.onHeartbeat]
    split_ifs with hboundary
    · exact ⟨⟨cs, rfl, htracks⟩, fun w hw ↦ Woven.frame hw (htracks.atBoundary hboundary)⟩
    · exact ⟨⟨cs, rfl, htracks⟩, fun w hw ↦ (word_append_nil _ w).2 hw⟩
  | collecting status ce body =>
    obtain rfl := hl
    exact ⟨rfl, fun w hw ↦ Woven.frame hw ⟨rfl, rfl⟩⟩

/-- An error is announced at once at a boundary, and after a blank line elsewhere. -/
theorem announce_cases (tracker : EventBoundaryTracker) (ev : Bytes) :
    (tracker.atBoundary = true ∧ announce tracker ev = .writing ev .finish) ∨
      announce tracker ev = .writing blankLine (.closing ev) := by
  rw [announce]
  split_ifs with hboundary
  · exact .inl ⟨hboundary, rfl⟩
  · exact .inr rfl

/-- An error is announced after what closes the chunks. -/
theorem announce_owed {tracker : EventBoundaryTracker} {cs : List Bytes}
    (h : EventBoundaryTracker.Tracks tracker (Reader.start.feed cs.flatten)) (ev : Bytes) :
    ∃ close, Woven.Closes cs close ∧ (announce tracker ev).owed = close ++ [ev] := by
  rcases announce_cases tracker ev with ⟨hboundary, heq⟩ | heq
  · exact ⟨[], .inl ⟨rfl, h.atBoundary hboundary⟩, by rw [heq]; rfl⟩
  · -- the tracker may be wrong in this direction, after a comment; a blank line does no harm
    exact ⟨[blankLine], .inr (congrArg (fun b ↦ [b]) blank_eq), by rw [heq]; rfl⟩

theorem announce_fits (tracker : EventBoundaryTracker) (ev : Bytes) {c : Course} (hc : c.Final) :
    (announce tracker ev).Fits connected c := by
  rcases announce_cases tracker ev with ⟨-, heq⟩ | heq
  · rwa [heq]
  · rwa [heq]

/-- An answer inside the window sets its course. -/
theorem answer_fits (result : Except Str (Response Incoming)) :
    (answer g result).2.Fits connected (Course.inWindow result) ∧
      (answer g result).2.owed = [] ∧
      (Course.inWindow result).Answer g (some (answer g result).1) := by
  cases result with
  | error e => exact ⟨fun _ ↦ trivial, rfl, _, rfl, ownError_badGateway g.crates e⟩
  | ok resp =>
    have hpassed := passedOn_passthroughResponse resp
    simp only [answer, Course.inWindow]
    by_cases hsse : resp.status.isSuccess = true ∧ isEventStream resp.headers = true
    · rw [if_pos (by simp [hsse])]
      cases hce : parseContentEncoding resp.headers with
      | none =>
        rw [if_neg (by simp)]
        exact ⟨fun _ ↦ trivial, rfl, _, rfl, hpassed⟩
      | some ce =>
        rw [if_pos (by simp [hsse])]
        exact ⟨⟨[], rfl, EventBoundaryTracker.tracks_new⟩, rfl, _, rfl, hsse.1, rfl⟩
    · have hcond : ¬ (resp.status.isSuccess && isEventStream resp.headers) = true := by
        simpa using hsse
      rw [if_neg hcond, if_neg fun h ↦ hsse ⟨h.1, h.2.1⟩]
      exact ⟨fun _ ↦ trivial, rfl, _, rfl, hpassed⟩

/-- An answer after the window sets its course and continues the heartbeats. -/
theorem bridge_fits (result : Except Str (Response Incoming)) :
    (bridge g result).Fits connected (Course.afterWindow result) ∧
      ∀ w, Woven heartbeat [] w →
        (Course.afterWindow result).Word g (w ++ (bridge g result).owed) := by
  cases result with
  | error e => exact ⟨trivial, fun w hw ↦ ⟨w, hw, rfl⟩⟩
  | ok resp =>
    simp only [bridge, Course.afterWindow]
    split_ifs with hsuccess hce
    · obtain ⟨ce, hce⟩ := Option.isSome_iff_exists.1 hce
      rw [hce]
      exact ⟨⟨[], rfl, EventBoundaryTracker.tracks_new⟩, fun w hw ↦ (word_append_nil _ w).2 hw⟩
    · rw [Option.not_isSome_iff_eq_none.1 hce]
      exact ⟨trivial, fun w hw ↦ ⟨w, hw, rfl⟩⟩
    · exact ⟨rfl, fun w hw ↦ (word_append_nil _ w).2 hw⟩

/-- An item of the stream continues the course and its word. -/
theorem onItem_fits {tracker : EventBoundaryTracker} {cs : List Bytes}
    (h : EventBoundaryTracker.Tracks tracker (Reader.start.feed cs.flatten)) (i : Item) :
    (onItem g tracker i).Fits connected ((Course.relaying cs).next g (.item i)) ∧
      ∀ w, Woven heartbeat cs w →
        ((Course.relaying cs).next g (.item i)).Word g (w ++ (onItem g tracker i).owed) := by
  cases i with
  | chunk b =>
    have hfeed := EventBoundaryTracker.feed_eq tracker b
    have htracks := h.feed hfeed
    simp only [onItem, hfeed]
    refine ⟨⟨cs ++ [b], rfl, ?_⟩, fun w hw ↦ Woven.piece hw b⟩
    rwa [List.flatten_append, List.flatten_singleton, Reader.feed_append]
  | failed e =>
    obtain ⟨close, hclose, howed⟩ := announce_owed h
      (ErrorEvent.build g.crates g.kind none none (some e.message))
    refine ⟨announce_fits connected tracker _ trivial, fun w hw ↦ ⟨w, close, hw, hclose, ?_⟩⟩
    rw [onItem, howed, List.append_assoc]
  | done => exact ⟨fun _ ↦ trivial, fun w hw ↦ (word_append_nil _ w).2 hw⟩

/-- The collected error body sets the error event. -/
theorem onCollected_fits (status : StatusCode) (ce : Option Coding) (body : Incoming) :
    (onCollected g status ce body).Fits connected
        ((Course.collecting status ce body).next g .collected) ∧
      ∀ w, Woven heartbeat [] w →
        ((Course.collecting status ce body).next g .collected).Word g
          (w ++ (onCollected g status ce body).owed) := by
  cases hbody : errorBody g ce body with
  | some b =>
    simp only [onCollected, Course.next, hbody]
    exact ⟨trivial, fun w hw ↦ ⟨w, hw, rfl⟩⟩
  | none =>
    simp only [onCollected, Course.next, hbody]
    exact ⟨trivial, fun w hw ↦ (word_append_nil _ w).2 hw⟩

/-- On an event stream the head of the response stays what it is. -/
theorem answer_next {g : Gateway} {c : Course} {reply : Option (Response BoxBody)}
    (h : c.Answer g reply) (hc : c ≠ .pending) (a : Action) : (c.next g a).Answer g reply := by
  unfold Course.next
  split
  · exact absurd rfl hc
  · exact absurd rfl hc
  · next result =>
    unfold Course.afterWindow
    cases result with
    | error e => exact h
    | ok resp =>
      simp only
      split_ifs
      · exact h
      · exact h
      · exact h
  · exact h
  · exact h
  · exact h
  · split
    · exact h
    · exact h
  · exact h

end

/-! ### The invariant -/

/-- A state refines a course. -/
structure Refines (g : Gateway) (c : Course) (s : State) : Prop where
  fits : s.task.Fits s.connected c
  word : s.connected = true → c.Word g (s.received ++ s.queue ++ s.task.owed)
  sent : ∃ w, c.Word g w ∧ s.received ++ s.queue <+: w
  answer : c.Answer g s.reply

/-- The handler begins on a course that is pending. -/
theorem refines_handleStream {g : Gateway} {parts : Parts} {body : Bytes} {now : Instant}
    {s : State} (h : handleStream g parts body now = some s) : Refines g .pending s := by
  obtain ⟨req, -, hs⟩ := Option.bind_eq_some_iff.1 h
  obtain rfl := Option.some.inj hs
  exact ⟨rfl, fun _ ↦ rfl, ⟨[], rfl, List.prefix_rfl⟩, rfl⟩

section

variable {g : Gateway} {c : Course} {s : State}

/-- A step of the handler or the task that touches no frame. -/
theorem Refines.act (h : Refines g c s) (a : Action) {t : Task} {now : Instant}
    {timer : Option Instant} {reply : Option (Response BoxBody)}
    (hfits : t.Fits s.connected (c.next g a))
    (hword : ∀ w, c.Word g (w ++ s.task.owed) → (c.next g a).Word g (w ++ t.owed))
    (hanswer : (c.next g a).Answer g reply) :
    Refines g (c.next g a)
      { s with now := now, task := t, heartbeat := timer, reply := reply } := by
  obtain ⟨w, hw, hle⟩ := h.sent
  obtain ⟨w', hw', hle'⟩ := Course.exists_word_next hw a
  exact ⟨hfits, fun hconn ↦ hword _ (h.word hconn), ⟨w', hw', hle.trans hle'⟩, hanswer⟩

/-- **One step keeps the refinement.** -/
theorem Refines.step (h : Refines g c s) {a : Action} {s' : State} (hstep : Step g s a s') :
    Refines g (c.next g a) s' := by
  have hfits := h.fits
  cases hstep with
  | @clock t hle =>
    have hnext : c.next g (.clock t) = c := c.next_of_inert (.clock t) trivial
    rw [hnext]
    exact ⟨h.fits, h.word, h.sent, h.answer⟩
  | elapse htask hdue =>
    -- the window is over: from the empty word to words of heartbeats
    rw [htask] at hfits
    obtain rfl := hfits
    refine h.act .timer rfl (fun w hw ↦ ?_) ⟨_, rfl, rfl, rfl⟩
    rw [htask] at hw
    obtain rfl : w = [] := (word_append_nil .pending w).1 hw
    exact Woven.nil
  | heartbeat htask hset hdue =>
    rw [htask] at hfits
    obtain ⟨hbeat, hword⟩ := onHeartbeat_fits g s.connected hfits
    have hnext : c.next g .timer = c := by
      cases c with
      | pending => exact absurd rfl hfits.ne_pending
      | _ => rfl
    refine h.act .timer (by rwa [hnext]) (fun w hw ↦ ?_) (by rw [hnext]; exact h.answer)
    rw [htask] at hw
    rw [hnext]
    exact hword w ((word_append_nil c w).1 hw)
  | start htask =>
    rw [htask] at hfits
    have hnext : c.next g .start = c := c.next_of_inert .start trivial
    refine h.act .start (by rwa [hnext]) (fun w hw ↦ ?_) (by rw [hnext]; exact h.answer)
    rw [htask] at hw
    rwa [hnext]
  | @answer deadline result htask =>
    rw [htask] at hfits
    obtain rfl := hfits
    obtain ⟨hans, howed, hreply⟩ := answer_fits g s.connected result
    refine h.act (.upstream result) hans (fun w hw ↦ ?_) hreply
    rw [htask] at hw
    obtain rfl : w = [] := (word_append_nil .pending w).1 hw
    rw [howed]
    exact Course.word_inWindow result
  | @bridge result htask =>
    rw [htask] at hfits
    obtain rfl := hfits
    obtain ⟨hbridge, hword⟩ := bridge_fits g s.connected result
    refine h.act (.upstream result) hbridge (fun w hw ↦ ?_)
      (answer_next h.answer (by simp) (.upstream result))
    rw [htask] at hw
    exact hword w ((word_append_nil .waiting w).1 hw)
  | @item tracker i htask =>
    rw [htask] at hfits
    obtain ⟨cs, rfl, htracks⟩ := hfits
    obtain ⟨hitem, hword⟩ := onItem_fits g s.connected htracks i
    refine h.act (.item i) hitem (fun w hw ↦ ?_) (answer_next h.answer (by simp) (.item i))
    rw [htask] at hw
    exact hword w ((word_append_nil (.relaying cs) w).1 hw)
  | @collected status ce body htask =>
    rw [htask] at hfits
    obtain rfl := hfits
    obtain ⟨hcoll, hword⟩ :=
      onCollected_fits g s.connected status ce body
    refine h.act .collected hcoll (fun w hw ↦ ?_) (answer_next h.answer (by simp) .collected)
    rw [htask] at hw
    exact hword w ((word_append_nil (.collecting status ce body) w).1 hw)
  | sent htask hconn hroom =>
    -- the first frame that was owed is in the channel now, so the word stays the same
    rw [htask] at hfits
    have hnext : c.next g .sent = c := c.next_of_inert .sent trivial
    have hword := h.word hconn
    rw [htask, Task.owed] at hword
    rw [hnext]
    exact ⟨Next.fits_sent hfits, fun _ ↦ by simpa using hword, ⟨_, hword, by simp⟩, h.answer⟩
  | refused htask hconn =>
    -- nothing is promised to a client that is gone but the prefix
    rw [htask, hconn] at hfits
    have hnext : c.next g .refused = c := c.next_of_inert .refused trivial
    rw [hnext]
    have hgone : ¬ s.connected = true := by simp [hconn]
    exact ⟨hconn ▸ Next.fits_refused hfits, fun hconn' ↦ absurd hconn' hgone, h.sent, h.answer⟩
  | rearm htask hreset =>
    rw [htask] at hfits
    have hnext : c.next g .rearm = c := c.next_of_inert .rearm trivial
    refine h.act .rearm (by rwa [hnext]) (fun w hw ↦ ?_) (by rw [hnext]; exact h.answer)
    rw [htask] at hw
    rwa [hnext]
  | overflow htask hreset =>
    -- a task that panics owes nothing and fits any course
    have hnext : c.next g .rearm = c := c.next_of_inert .rearm trivial
    refine h.act .rearm trivial (fun w hw ↦ ?_) (by rw [hnext]; exact h.answer)
    rw [htask] at hw
    rwa [hnext]
  | recv hqueue hconn =>
    have hnext : c.next g .recv = c := c.next_of_inert .recv trivial
    rw [hnext]
    have hword := h.word hconn
    obtain ⟨w, hw, hle⟩ := h.sent
    rw [hqueue] at hword hle
    exact ⟨h.fits, fun _ ↦ by simpa using hword, ⟨w, hw, by simpa using hle⟩, h.answer⟩
  | disconnect hconn =>
    -- the channel is dropped, and what had been received is still the beginning of a word
    have hnext : c.next g .disconnect = c := c.next_of_inert .disconnect trivial
    rw [hnext]
    obtain ⟨w, hw, hle⟩ := h.sent
    rw [hconn] at hfits
    have hle' : s.received ++ [] <+: w := by
      rw [List.append_nil]
      exact (List.prefix_append _ _).trans hle
    exact ⟨Task.fits_disconnected hfits, fun hconn' ↦ (nomatch hconn'), ⟨w, hw, hle'⟩, h.answer⟩

/-- **Every run refines its course.** -/
theorem refines_run {parts : Parts} {body : Bytes} {now : Instant} {s₀ : State}
    (h₀ : handleStream g parts body now = some s₀) {as : List Action}
    (hrun : Transition.run (step g) s₀ as = some s) : Refines g (Course.of g as) s := by
  refine Transition.run_induction (P := fun as s ↦ Refines g (Course.of g as) s)
    (refines_handleStream h₀) ?_ hrun
  intro as a s s' _ ih hstep
  rw [Course.of_concat]
  exact ih.step (Step.of_step hstep)

/-! ### Chunks and requests -/

/-- The chunks that the decoded stream yields in a run. -/
def yielded (as : List Action) : List Bytes :=
  as.filterMap fun
    | .item (.chunk b) => some b
    | _ => none

theorem chunks_inWindow (result : Except Str (Response Incoming)) :
    (Course.inWindow result).chunks = [] := by
  unfold Course.inWindow
  cases result with
  | error e => rfl
  | ok resp =>
    simp only
    split_ifs
    · rfl
    · rfl

theorem chunks_afterWindow (result : Except Str (Response Incoming)) :
    (Course.afterWindow result).chunks = [] := by
  unfold Course.afterWindow
  cases result with
  | error e => rfl
  | ok resp =>
    simp only
    split_ifs
    · rfl
    · rfl
    · rfl

/-- The course counts the chunks that are yielded to it. -/
theorem chunks_next {a : Action} (h : ∀ b, a = .item (.chunk b) → ∃ cs, c = .relaying cs) :
    (c.next g a).chunks = c.chunks ++ yielded [a] := by
  by_cases hchunk : ∃ b, a = .item (.chunk b)
  · obtain ⟨b, rfl⟩ := hchunk
    obtain ⟨cs, rfl⟩ := h b rfl
    rfl
  · -- no other action yields a chunk, and no other rule of `next` adds one
    have hyield : yielded [a] = [] := by
      rcases a with - | - | - | - | ⟨b | - | -⟩ | - | - | - | - | - | -
      case item.chunk => exact absurd ⟨b, rfl⟩ hchunk
      all_goals rfl
    rw [hyield, List.append_nil]
    unfold Course.next
    split
    · rfl
    · exact chunks_inWindow _
    · exact chunks_afterWindow _
    · next cs b => exact absurd ⟨b, rfl⟩ hchunk
    · rfl
    · rfl
    · split
      · rfl
      · rfl
    · rfl

/-- **The chunks of a run's course are those that the stream yielded**, in order. -/
theorem chunks_run {parts : Parts} {body : Bytes} {now : Instant} {s₀ : State}
    (h₀ : handleStream g parts body now = some s₀) {as : List Action}
    (hrun : Transition.run (step g) s₀ as = some s) :
    (Course.of g as).chunks = yielded as := by
  refine Transition.run_induction (P := fun as _ ↦ (Course.of g as).chunks = yielded as)
    rfl ?_ hrun
  intro as a s s' hs ih hstep
  have hrefines := refines_run h₀ hs
  have hnext : ((Course.of g as).next g a).chunks = (Course.of g as).chunks ++ yielded [a] := by
    refine chunks_next ?_
    rintro b rfl
    cases Step.of_step hstep with
    | item htask =>
      have hfits := hrefines.fits
      rw [htask] at hfits
      obtain ⟨cs, hcs, -⟩ := hfits
      exact ⟨cs, hcs⟩
  rw [Course.of_concat, hnext, ih]
  exact (List.filterMap_append).symm

/-- One request is made, at the beginning. -/
theorem requests_run {parts : Parts} {body : Bytes} {now : Instant} {s₀ : State}
    (h₀ : handleStream g parts body now = some s₀) {as : List Action}
    (hrun : Transition.run (step g) s₀ as = some s) :
    ∃ req, buildUpstreamRequest g.crates g.cfg parts body = some req ∧ s.requests = [req] := by
  obtain ⟨req, hreq, hs⟩ := Option.bind_eq_some_iff.1 h₀
  refine ⟨req, hreq, ?_⟩
  refine Transition.run_induction (P := fun _ s ↦ s.requests = [req]) ?_ ?_ hrun
  · rw [← Option.some.inj hs]
  · intro as a s s' _ ih hstep
    cases Step.of_step hstep <;> exact ih

/-- **The shape of a run**, whatever the order of events. One upstream request is made. The answer
is the one of the run's course. What the client has received is the beginning of a word of that
course, over the chunks that the stream yielded. And if the client is still there when the task has
come to its end, then the course is over, and what has been received and what is in the channel are
a word of it, complete. -/
theorem handleStream_run_shape {parts : Parts} {body : Bytes} {now : Instant} {s₀ : State}
    (h₀ : handleStream g parts body now = some s₀) {as : List Action}
    (hrun : Transition.run (step g) s₀ as = some s) :
    (∃ req, buildUpstreamRequest g.crates g.cfg parts body = some req ∧ s.requests = [req]) ∧
      (Course.of g as).Answer g s.reply ∧
      (Course.of g as).chunks = yielded as ∧
      (∃ w, (Course.of g as).Word g w ∧ s.received <+: w) ∧
      (s.connected = true → s.task = .finished →
        (Course.of g as).Final ∧ (Course.of g as).Word g (s.received ++ s.queue)) := by
  have hrefines := refines_run h₀ hrun
  obtain ⟨w, hw, hle⟩ := hrefines.sent
  refine ⟨requests_run h₀ hrun, hrefines.answer, chunks_run h₀ hrun,
    ⟨w, hw, (List.prefix_append _ _).trans hle⟩, fun hconn htask ↦ ?_⟩
  have hfits := hrefines.fits
  have hword := hrefines.word hconn
  rw [htask] at hfits hword
  exact ⟨hfits hconn, (word_append_nil _ _).1 hword⟩

end

/-- The upstream is slow, then streams half an event and breaks off. -/
def brokenRun : List Action := [
  .clock (second 60), .timer, .start,
  .clock (second 120), .timer, .sent, .rearm,
  .upstream (.ok eventStream), .item (.chunk (utf8 "data: hi".toList)), .sent, .rearm,
  .item (.failed ⟨.unexpectedEof, "unexpected end of file".toList⟩), .sent, .sent, .recv, .recv]

/-- The run is possible, and it comes to its end while the client is there. -/
theorem brokenRun_spec :
    ∃ s₀ s, handleStream .reference (chatRequest ⟨utf8 "keep-alive".toList, by decide⟩) []
        (second 0) = some s₀ ∧
      Transition.run (step .reference) s₀ brokenRun = some s ∧
      s.received = [heartbeat, utf8 "data: hi".toList] ∧ s.queue.length = 2 ∧
      s.connected = true ∧ s.task = .finished :=
  ⟨_, _, rfl, rfl, rfl, rfl, rfl, rfl⟩

/-- The client of a stream that broke off has a heartbeat and a chunk, and the rest of the word is
on its way. -/
theorem handleStream_broken_run :
    ∃ s₀ s, handleStream .reference (chatRequest ⟨utf8 "keep-alive".toList, by decide⟩) []
        (second 0) = some s₀ ∧
      Transition.run (step .reference) s₀ brokenRun = some s ∧
      s.received = [heartbeat, utf8 "data: hi".toList] ∧
      (Course.of .reference brokenRun).Final ∧
      (Course.of .reference brokenRun).Word .reference (s.received ++ s.queue) := by
  obtain ⟨s₀, s, h₀, hrun, hreceived, -, hconn, htask⟩ := brokenRun_spec
  exact ⟨s₀, s, h₀, hrun, hreceived, (handleStream_run_shape h₀ hrun).2.2.2.2 hconn htask⟩

end KeepSse.Sse
