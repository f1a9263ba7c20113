import KeepSse.Sse.Task
import KeepSse.Weave

/-!
# What the SSE path is for

The purpose of the SSE path, stated without its loops, its timer or its channel. A run takes a
**course**, and the course follows from what the upstream did and when: it failed or answered inside
the window or after it, it streamed, it broke off. Each course says which answer the client gets and
which frames: a **word** over decoded chunks, heartbeats and one error event.

## Courses and words

The course of a run is a fold over its actions (`Course.of`), and most of them do not matter: the
clock, the channel and the client set no course (`Course.next_of_inert`). So two runs in which the
upstream does the same have the same course, however they are interleaved.

Later events extend the words of a course (`exists_word_next`), so a client that has gone away early
has a prefix of a word of whatever course the run took without it. This is the one lemma about
courses that the refinement needs for such a client.

The answer of a course is stated in full where it is the gateway's own or the upstream's
(`OwnError`, `PassedOn`), so that a course can be read without the code that answers.

`Sse.Refinement` proves that the machine of `Sse.Task` does this and nothing else.
-/

namespace KeepSse.Sse

open Text Http EventStream

/-- The course of a run. -/
inductive Course where
  /-- The window is open and the upstream has not answered. -/
  | pending
  /-- In the window the upstream request failed. -/
  | refused (e : Str)
  /-- In the window the upstream answered with something that is not relayed as events. -/
  | passedOn (resp : Response Incoming)
  /-- The window is over and the upstream has not answered. -/
  | waiting
  /-- The decoded stream is being relayed; so far it yielded these chunks. -/
  | relaying (cs : List Bytes)
  /-- The stream ended. -/
  | ended (cs : List Bytes)
  /-- The stream broke off. -/
  | broken (cs : List Bytes) (e : IoError)
  /-- After the window the upstream answered with an error, whose body is being read. -/
  | collecting (status : StatusCode) (ce : Option Coding) (body : Incoming)
  /-- After the window the upstream failed; the client is told by the event of these arguments. -/
  | rejected (status : Option StatusCode) (body : Option Bytes) (reason : Option Str)

/-- The actions of the clock, the channel and the client. -/
def Action.Inert : Action → Prop
  | .clock _ => True
  | .start => True
  | .sent => True
  | .refused => True
  | .rearm => True
  | .recv => True
  | .disconnect => True
  | _ => False

namespace Course

variable (g : Gateway)

/-- The course that an answer inside the window sets. -/
def inWindow (result : Except Str (Response Incoming)) : Course :=
  match result with
  | .error e => .refused e
  | .ok resp =>
    if resp.status.isSuccess ∧ isEventStream resp.headers ∧
        (parseContentEncoding resp.headers).isSome then
      .relaying []
    else .passedOn resp

/-- The course that an answer after the window sets. -/
def afterWindow (result : Except Str (Response Incoming)) : Course :=
  match result with
  | .error e => .rejected none none (some e)
  | .ok resp =>
    if resp.status.isSuccess then
      if (parseContentEncoding resp.headers).isSome then .relaying []
      else .rejected none none (some "unsupported upstream content-encoding".toList)
    else .collecting resp.status (parseContentEncoding resp.headers) resp.body

/-- The course after one more action. Only the window, the upstream and its stream set a course;
the clock, the channel and the client do not. -/
def next (c : Course) (a : Action) : Course :=
  match c, a with
  | .pending, .timer => .waiting
  | .pending, .upstream result => inWindow result
  | .waiting, .upstream result => afterWindow result
  | .relaying cs, .item (.chunk b) => .relaying (cs ++ [b])
  | .relaying cs, .item (.failed e) => .broken cs e
  | .relaying cs, .item .done => .ended cs
  | .collecting status ce body, .collected =>
    match errorBody g ce body with
    | some b => .rejected (some status) (some b) none
    | none => .collecting status ce body
  | c, _ => c

/-- The course of a run. -/
def of (as : List Action) : Course :=
  as.foldl (next g) .pending

theorem of_concat (as : List Action) (a : Action) : of g (as ++ [a]) = (of g as).next g a := by
  simp [of]

/-- The clock, the channel and the client set no course. -/
theorem next_of_inert {g : Gateway} (c : Course) (a : Action) (ha : a.Inert) : c.next g a = c := by
  cases a with
  | timer => exact ha.elim
  | upstream result => exact ha.elim
  | item i => exact ha.elim
  | collected => exact ha.elim
  | _ => cases c <;> rfl

/-! ### The words of a course -/

/-- The frames that a client who stays may have been sent when a run has taken a course: none
before and without an event stream; on one, the decoded chunks in order, each once, with heartbeats
where no event is open; and after an error its event, with the open event closed first. -/
def Word (c : Course) (w : List Bytes) : Prop :=
  match c with
  | .pending => w = []
  | .refused _ => w = []
  | .passedOn _ => w = []
  | .waiting => Woven heartbeat [] w
  | .relaying cs => Woven heartbeat cs w
  | .ended cs => Woven heartbeat cs w
  | .broken cs e => ∃ w₀ close, Woven heartbeat cs w₀ ∧ Woven.Closes cs close ∧
      w = w₀ ++ close ++ [ErrorEvent.build g.crates g.kind none none (some e.message)]
  | .collecting _ _ _ => Woven heartbeat [] w
  | .rejected status body reason => ∃ w₀, Woven heartbeat [] w₀ ∧
      w = w₀ ++ [ErrorEvent.build g.crates g.kind status body reason]

/-- The answer that goes with a course. A request that failed in the window is answered with
status 502 and the reason; a response that is not relayed is passed on, its body untouched; else the
client has an event stream. -/
def Answer (c : Course) (reply : Option (Response BoxBody)) : Prop :=
  match c with
  | .pending => reply = none
  | .refused e => ∃ head, reply = some head ∧
      OwnError g.crates 502 ("upstream request failed: ".toList ++ e) "server_error".toList head
  | .passedOn resp => ∃ head, reply = some head ∧ PassedOn resp head
  | _ => ∃ head, reply = some head ∧ head.status.isSuccess = true ∧ head.body = .channel

/-- Nothing more will be written on a course. -/
def Final : Course → Prop
  | .pending => False
  | .waiting => False
  | .relaying _ => False
  | .collecting _ _ _ => False
  | _ => True

/-- The chunks that a course has seen. -/
def chunks : Course → List Bytes
  | .relaying cs => cs
  | .ended cs => cs
  | .broken cs _ => cs
  | _ => []

variable {g}

theorem word_inWindow (result : Except Str (Response Incoming)) : (inWindow result).Word g [] := by
  unfold inWindow
  cases result with
  | error e => rfl
  | ok resp =>
    simp only
    split_ifs
    · exact .nil
    · rfl

/-- An answer after the window extends a word of heartbeats. -/
theorem exists_word_afterWindow (result : Except Str (Response Incoming)) {w : List Bytes}
    (h : Woven heartbeat [] w) : ∃ w', (afterWindow result).Word g w' ∧ w <+: w' := by
  unfold afterWindow
  cases result with
  | error e => exact ⟨_, ⟨w, h, rfl⟩, List.prefix_append _ _⟩
  | ok resp =>
    simp only
    split_ifs
    · exact ⟨w, h, List.prefix_rfl⟩
    · exact ⟨_, ⟨w, h, rfl⟩, List.prefix_append _ _⟩
    · exact ⟨w, h, List.prefix_rfl⟩

/-- **A later action extends the words of a course.** -/
theorem exists_word_next {c : Course} {w : List Bytes} (h : c.Word g w) (a : Action) :
    ∃ w', (c.next g a).Word g w' ∧ w <+: w' := by
  unfold next
  split
  · obtain rfl : w = [] := h
    exact ⟨[], .nil, List.prefix_rfl⟩
  · obtain rfl : w = [] := h
    exact ⟨[], word_inWindow _, List.prefix_rfl⟩
  · exact exists_word_afterWindow _ h
  · next cs b => exact ⟨_, Woven.piece h b, List.prefix_append _ _⟩
  · exact ⟨_, ⟨w, _, h, .inr rfl, rfl⟩, by
      rw [List.append_assoc]
      exact List.prefix_append _ _⟩
  · exact ⟨w, h, List.prefix_rfl⟩
  · split
    · exact ⟨_, ⟨w, h, rfl⟩, List.prefix_append _ _⟩
    · exact ⟨w, h, List.prefix_rfl⟩
  · exact ⟨w, h, List.prefix_rfl⟩

end Course

end KeepSse.Sse
