import KeepSse.ErrorEvent.Build
import KeepSse.Sse.Head
import KeepSse.Sse.Tracker

/-!
# The SSE path as a state machine

A request on the SSE path is one system: the handler that races the upstream against the window,
the task it spawns, the channel between that task and the client, and the timer that three loops
of the task hand to each other. A step is what happens next (`Action`): the clock advances, a timer
fires, the upstream answers, the decoded stream yields, a write goes through or is refused, the
client takes a frame or goes away. Which of several possible things happens next is nobody's choice
here, so a property of all runs is a property of every race.

A write is a state of its own (`Task.writing`): the task does nothing else until the channel has
room or the client is gone. So is re-arming the timer (`Task.rearming`), the one place where the
code adds to a clock reading: the sum may be out of range, or in range but too large for the timer
to round, and either is a panic of the task.

`Step` lists what a step can do, guards included, and `Step.of_step` is the only proof that unfolds
the machine.
-/

namespace KeepSse.Sse

open Text Http EventStream

/-! ### Constants -/

def heartbeat : Bytes := utf8 ":\n\n".toList

/-- What ends an event that was broken off. -/
def blankLine : Bytes := utf8 "\n\n".toList

/-- The limit on error bodies, read and decoded. -/
def maxErrorBody : UInt64 := 1024 * 1024

/-- The frames that the channel holds. -/
def capacity : ℕ := 16

/-- What a run depends on besides the order of events. -/
structure Gateway where
  crates : Crates
  profile : Profile
  cfg : ResolvedConfig
  kind : EndpointKind

def Gateway.interval (g : Gateway) : Duration :=
  g.cfg.heartbeatInterval

/-! ### The task -/

/-- A loop of the task. -/
inductive Loop where
  /-- `bridge`, before the upstream has answered. -/
  | waiting
  /-- `handle_success`. -/
  | relaying (tracker : EventBoundaryTracker)
  /-- `handle_error`, while the error body is read. -/
  | collecting (status : StatusCode) (ce : Option Coding) (body : Incoming)
  deriving DecidableEq

/-- What the task does after a write. -/
inductive Next where
  /-- Re-arm the timer and go on with the loop; end if the write was refused. -/
  | rearm (l : Loop)
  /-- Write the error event, whatever became of the write. -/
  | closing (ev : Bytes)
  /-- End, whatever became of the write. -/
  | finish
  deriving DecidableEq

/-- Where the handler and its task are. -/
inductive Task where
  /-- The handler races the upstream against the window. -/
  | window (deadline : Instant)
  /-- The task is spawned and has not run yet. -/
  | spawned (l : Loop)
  /-- The task waits in the `select!` of a loop. -/
  | looping (l : Loop)
  /-- The task is about to re-arm the timer. -/
  | rearming (l : Loop)
  /-- The task waits for the channel to take a frame. -/
  | writing (frame : Bytes) (next : Next)
  | finished
  | panicked
  /-- The client went away while the handler was racing. -/
  | cancelled
  deriving DecidableEq

/-- What the decoded upstream stream yields. -/
inductive Item where
  | chunk (b : Bytes)
  | failed (e : IoError)
  | done
  deriving DecidableEq

/-- The timer fires in a loop: a heartbeat, unless an event is open. -/
def Loop.onHeartbeat : Loop → Task
  | .relaying tracker =>
    if tracker.atBoundary then .writing heartbeat (.rearm (.relaying tracker))
    else .rearming (.relaying tracker)
  | l => .writing heartbeat (.rearm l)

/-- Announce an error on a stream: close the open event first, if there is one. -/
def announce (tracker : EventBoundaryTracker) (ev : Bytes) : Task :=
  if tracker.atBoundary then .writing ev .finish else .writing blankLine (.closing ev)

/-- The beginning of `handle_success`. -/
def handleSuccess (g : Gateway) (upstreamCe : Option Coding) : Task :=
  let tracker := EventBoundaryTracker.new
  match upstreamCe with
  | none =>
    announce tracker (ErrorEvent.build g.crates g.kind none none
      (some "unsupported upstream content-encoding".toList))
  | some _ => .looping (.relaying tracker)

/-- What `bridge` makes of the upstream's answer. -/
def bridge (g : Gateway) (result : Except Str (Response Incoming)) : Task :=
  match result with
  | .ok resp =>
    let upstreamCe := parseContentEncoding resp.headers
    if resp.status.isSuccess then handleSuccess g upstreamCe
    else .looping (.collecting resp.status upstreamCe resp.body)
  | .error e => .writing (ErrorEvent.build g.crates g.kind none none (some e)) .finish

/-- What `handle_success` makes of an item of the stream. -/
def onItem (g : Gateway) (tracker : EventBoundaryTracker) : Item → Task
  | .chunk bytes =>
    match tracker.feed bytes with
    | some tracker => .writing bytes (.rearm (.relaying tracker))
    | none => .panicked
  | .failed e =>
    announce tracker (ErrorEvent.build g.crates g.kind none none (some e.message))
  | .done => .finished

/-- The error body of `handle_error`: what could be read of it, decoded if possible; `none` is a
panic. -/
def errorBody (g : Gateway) (ce : Option Coding) (body : Incoming) : Option Bytes :=
  let collected := match body.collectLimited maxErrorBody.toNat with
    | .ok c => c
    | .error _ => []
  match ce with
  | none => some collected
  | some .identity => some collected
  | some ce =>
    (decodeBytes g.profile g.crates ce collected maxErrorBody).map fun
      | .ok decoded => decoded
      | .error _ => collected

/-- The end of `handle_error`. -/
def onCollected (g : Gateway) (status : StatusCode) (ce : Option Coding) (body : Incoming) :
    Task :=
  match errorBody g ce body with
  | some errorBody =>
    .writing (ErrorEvent.build g.crates g.kind (some status) (some errorBody) none) .finish
  | none => .panicked

/-- What the handler answers when the upstream is in time, and the task it leaves behind. -/
def answer (g : Gateway) (result : Except Str (Response Incoming)) : Response BoxBody × Task :=
  match result with
  | .ok resp =>
    let upstreamCe := parseContentEncoding resp.headers
    let isSse := isEventStream resp.headers
    if resp.status.isSuccess && isSse then
      match upstreamCe with
      | some _ => (passthroughSseResponse resp, .spawned (.relaying EventBoundaryTracker.new))
      | none => (passthroughResponse resp, .finished)
    else (passthroughResponse resp, .finished)
  | .error e => (badGateway g.crates e, .finished)

def Next.sent : Next → Task
  | .rearm l => .rearming l
  | .closing ev => .writing ev .finish
  | .finish => .finished

def Next.refused : Next → Task
  | .rearm _ => .finished
  | .closing ev => .writing ev .finish
  | .finish => .finished

/-- The client goes away: the server drops the handler, but not a task that it has spawned. -/
def Task.disconnected : Task → Task
  | .window _ => .cancelled
  | t => t

/-! ### The system -/

structure State where
  now : Instant
  connected : Bool
  /-- The requests sent upstream. -/
  requests : List (Request BoxBody)
  /-- The head of the response, once there is one. -/
  reply : Option (Response BoxBody)
  task : Task
  /-- The deadline of the timer that the loops share. -/
  heartbeat : Option Instant
  /-- The frames in the channel. -/
  queue : List Bytes
  /-- The frames that the client has taken. -/
  received : List Bytes

inductive Action where
  | clock (t : Instant)
  | timer
  | start
  | upstream (result : Except Str (Response Incoming))
  | item (i : Item)
  | collected
  | sent
  | refused
  | rearm
  | recv
  | disconnect

/-- The handler is called: the upstream request is sent and the window opens. -/
def handleStream (g : Gateway) (parts : Parts) (body : Bytes) (now : Instant) : Option State := do
  let upstreamReq ← buildUpstreamRequest g.crates g.cfg parts body
  some {
    now := now
    connected := true
    requests := [upstreamReq]
    reply := none
    task := .window (g.crates.sleep now g.interval)
    heartbeat := none
    queue := []
    received := [] }

/-- **One step**, if it is possible. -/
def step (g : Gateway) (s : State) : Action → Option State
  | .clock t => if s.now ≤ t then some { s with now := t } else none
  | .timer =>
    match s.task with
    | .window deadline =>
      if deadline ≤ s.now then
        some { s with task := .spawned .waiting, reply := some keepaliveResponse }
      else none
    | .looping l =>
      match s.heartbeat with
      | some deadline => if deadline ≤ s.now then some { s with task := l.onHeartbeat } else none
      | none => none
    | _ => none
  | .start =>
    match s.task with
    | .spawned l =>
      some { s with task := .looping l, heartbeat := some (g.crates.sleep s.now g.interval) }
    | _ => none
  | .upstream result =>
    match s.task with
    | .window _ => some { s with task := (answer g result).2, reply := some (answer g result).1 }
    | .looping .waiting => some { s with task := bridge g result }
    | _ => none
  | .item i =>
    match s.task with
    | .looping (.relaying tracker) => some { s with task := onItem g tracker i }
    | _ => none
  | .collected =>
    match s.task with
    | .looping (.collecting status ce body) =>
      some { s with task := onCollected g status ce body }
    | _ => none
  | .sent =>
    match s.task with
    | .writing frame next =>
      if s.connected ∧ s.queue.length < capacity then
        some { s with task := next.sent, queue := s.queue ++ [frame] }
      else none
    | _ => none
  | .refused =>
    match s.task with
    | .writing _ next => if s.connected then none else some { s with task := next.refused }
    | _ => none
  | .rearm =>
    match s.task with
    | .rearming l =>
      match s.now.reset g.interval with
      | some deadline => some { s with task := .looping l, heartbeat := some deadline }
      | none => some { s with task := .panicked }
    | _ => none
  | .recv =>
    match s.queue with
    | frame :: queue =>
      if s.connected then some { s with queue := queue, received := s.received ++ [frame] }
      else none
    | [] => none
  | .disconnect =>
    if s.connected then
      some { s with connected := false, queue := [], task := s.task.disconnected }
    else none

/-! ### What a step can do -/

/-- The steps, one constructor for each branch that is taken. -/
inductive Step (g : Gateway) (s : State) : Action → State → Prop where
  | clock {t : Instant} (hle : s.now ≤ t) : Step g s (.clock t) { s with now := t }
  | elapse {deadline : Instant} (htask : s.task = .window deadline) (hdue : deadline ≤ s.now) :
    Step g s .timer { s with task := .spawned .waiting, reply := some keepaliveResponse }
  | heartbeat {l : Loop} {deadline : Instant} (htask : s.task = .looping l)
    (hset : s.heartbeat = some deadline) (hdue : deadline ≤ s.now) :
    Step g s .timer { s with task := l.onHeartbeat }
  | start {l : Loop} (htask : s.task = .spawned l) :
    Step g s .start
      { s with task := .looping l, heartbeat := some (g.crates.sleep s.now g.interval) }
  | answer {deadline : Instant} {result : Except Str (Response Incoming)}
    (htask : s.task = .window deadline) :
    Step g s (.upstream result)
      { s with task := (answer g result).2, reply := some (answer g result).1 }
  | bridge {result : Except Str (Response Incoming)} (htask : s.task = .looping .waiting) :
    Step g s (.upstream result) { s with task := bridge g result }
  | item {tracker : EventBoundaryTracker} {i : Item}
    (htask : s.task = .looping (.relaying tracker)) :
    Step g s (.item i) { s with task := onItem g tracker i }
  | collected {status : StatusCode} {ce : Option Coding} {body : Incoming}
    (htask : s.task = .looping (.collecting status ce body)) :
    Step g s .collected { s with task := onCollected g status ce body }
  | sent {frame : Bytes} {next : Next} (htask : s.task = .writing frame next)
    (hconn : s.connected = true) (hroom : s.queue.length < capacity) :
    Step g s .sent { s with task := next.sent, queue := s.queue ++ [frame] }
  | refused {frame : Bytes} {next : Next} (htask : s.task = .writing frame next)
    (hconn : s.connected = false) : Step g s .refused { s with task := next.refused }
  | rearm {l : Loop} {deadline : Instant} (htask : s.task = .rearming l)
    (hreset : s.now.reset g.interval = some deadline) :
    Step g s .rearm { s with task := .looping l, heartbeat := some deadline }
  | overflow {l : Loop} (htask : s.task = .rearming l)
    (hreset : s.now.reset g.interval = none) : Step g s .rearm { s with task := .panicked }
  | recv {frame : Bytes} {queue : List Bytes} (hqueue : s.queue = frame :: queue)
    (hconn : s.connected = true) :
    Step g s .recv { s with queue := queue, received := s.received ++ [frame] }
  | disconnect (hconn : s.connected = true) :
    Step g s .disconnect
      { s with connected := false, queue := [], task := s.task.disconnected }

/-- **The machine does nothing else.** -/
theorem Step.of_step {g : Gateway} {s s' : State} {a : Action} (h : step g s a = some s') :
    Step g s a s' := by
  cases a with
  | clock t =>
    simp only [step, Option.ite_none_right_eq_some, Option.some.injEq] at h
    obtain ⟨hle, rfl⟩ := h
    exact .clock hle
  | timer =>
    simp only [step] at h
    split at h
    · next deadline htask =>
      simp only [Option.ite_none_right_eq_some, Option.some.injEq] at h
      obtain ⟨hdue, rfl⟩ := h
      exact .elapse htask hdue
    · next l htask =>
      split at h
      · next deadline hset =>
        simp only [Option.ite_none_right_eq_some, Option.some.injEq] at h
        obtain ⟨hdue, rfl⟩ := h
        exact .heartbeat htask hset hdue
      · cases h
    · cases h
  | start =>
    simp only [step] at h
    split at h
    · next l htask =>
      obtain rfl := Option.some.inj h
      exact .start htask
    · cases h
  | upstream result =>
    simp only [step] at h
    split at h
    · next deadline htask =>
      obtain rfl := Option.some.inj h
      exact .answer htask
    · next htask =>
      obtain rfl := Option.some.inj h
      exact .bridge htask
    · cases h
  | item i =>
    simp only [step] at h
    split at h
    · next tracker htask =>
      obtain rfl := Option.some.inj h
      exact .item htask
    · cases h
  | collected =>
    simp only [step] at h
    split at h
    · next status ce body htask =>
      obtain rfl := Option.some.inj h
      exact .collected htask
    · cases h
  | sent =>
    simp only [step] at h
    split at h
    · next frame next htask =>
      simp only [Option.ite_none_right_eq_some, Option.some.injEq] at h
      obtain ⟨⟨hconn, hroom⟩, rfl⟩ := h
      exact .sent htask hconn hroom
    · cases h
  | refused =>
    simp only [step] at h
    split at h
    · next frame next htask =>
      simp only [Option.ite_none_left_eq_some, Option.some.injEq, Bool.not_eq_true] at h
      obtain ⟨hconn, rfl⟩ := h
      exact .refused htask hconn
    · cases h
  | rearm =>
    simp only [step] at h
    split at h
    · next l htask =>
      split at h
      · next deadline hreset =>
        obtain rfl := Option.some.inj h
        exact .rearm htask hreset
      · next hreset =>
        obtain rfl := Option.some.inj h
        exact .overflow htask hreset
    · cases h
  | recv =>
    simp only [step] at h
    split at h
    · next frame queue hqueue =>
      simp only [Option.ite_none_right_eq_some, Option.some.injEq] at h
      obtain ⟨hconn, rfl⟩ := h
      exact .recv hqueue hconn
    · cases h
  | disconnect =>
    simp only [step, Option.ite_none_right_eq_some, Option.some.injEq] at h
    obtain ⟨hconn, rfl⟩ := h
    exact .disconnect hconn

/-! ### A gateway to run -/

/-- A gateway with the default configuration, before a Chat Completions upstream. -/
def Gateway.reference : Gateway :=
  ⟨.reference, .release, .reference, .chatCompletions⟩

/-- The clock, some seconds after it was started. -/
def second (n : UInt16) : Instant :=
  ⟨n.toNat * 10 ^ 9, by omega, by have := n.toNat_lt; omega⟩

/-- An event stream. -/
def eventStream : Response Incoming where
  status := StatusCode.ok
  headers := [(HeaderName.contentType, ⟨utf8 "text/event-stream".toList, by decide⟩)]
  body := ⟨[], none⟩

end KeepSse.Sse
