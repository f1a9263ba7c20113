import KeepSse.ErrorEvent.Payload
import KeepSse.Sse.Refinement

/-!
# What the client reads

The words of a course, read as an event stream. Heartbeats are comments at places where no event is
open, so a relayed stream is read as the upstream wrote it (`heartbeats_invisible`). And an error
event is read by itself, whatever it comes after (`error_event_stands_alone`).

Both are facts about words (`Weave`), carried to the machine by the refinement.

## What each result rests on

* `heartbeats_invisible` rests on the course of a run in which nothing breaks off: it is **calm**,
  and the words of a calm course are woven from its chunks (`Course.woven_of_calm`). A woven stream
  and its pieces are read in agreement, which is more than reading the same events: what is
  unfinished is the same too, so the result holds in the middle of a run and with the frame that is
  being written.
* `error_event_stands_alone` rests on the courses of the failures. A stream error breaks a course
  off (`course_of_failed`), and a failure after the window is one that is reported
  (`course_of_failing`). The words of such a course end with the event; a blank line before it
  closes what the chunks have left open (`read_error_word`). That the event is a whole event by
  itself is a fact about its bytes (`read_build`), for which serde_json has to print a value on one
  line.

The client is there in both: one who has gone away has the beginning of such a word.
-/

namespace KeepSse.Sse

open Text Http EventStream

theorem invisible_heartbeat : Invisible heartbeat := by
  have h : heartbeat = colon :: [] ++ [lineFeed, lineFeed] := by decide
  rw [h]
  exact invisible_comment (by simp) (by simp)

section

variable {g : Gateway} {parts : Parts} {body : Bytes} {now : Instant} {s₀ s : State}
  {as : List Action}

/-! ### A relayed stream -/

/-- Nothing breaks off: the upstream answers with a success in a coding that can be decoded, and
its stream yields no error. -/
def Action.Benign : Action → Prop
  | .upstream result => ∃ resp, result = .ok resp ∧ resp.status.isSuccess = true ∧
      (parseContentEncoding resp.headers).isSome = true
  | .item (.failed _) => False
  | _ => True

/-- A course on which nothing has broken off. -/
def Course.Calm : Course → Prop
  | .refused _ => False
  | .broken _ _ => False
  | .collecting _ _ _ => False
  | .rejected _ _ _ => False
  | _ => True

theorem Course.calm_next {c : Course} (hc : c.Calm) {a : Action} (ha : a.Benign) :
    (c.next g a).Calm := by
  unfold Course.next
  split
  · trivial
  · obtain ⟨resp, rfl, -, -⟩ := ha
    simp only [Course.inWindow]
    split_ifs
    · trivial
    · trivial
  · obtain ⟨resp, rfl, hsuccess, hce⟩ := ha
    simp only [Course.afterWindow, if_pos hsuccess, if_pos hce]
    trivial
  · trivial
  · exact ha
  · trivial
  · exact hc.elim
  · exact hc

theorem Course.calm_of (h : ∀ a ∈ as, a.Benign) : (Course.of g as).Calm := by
  induction as using List.reverseRecOn with
  | nil => trivial
  | append_singleton as a ih =>
    obtain ⟨has, ha⟩ := List.forall_mem_append.1 h
    rw [Course.of_concat]
    exact Course.calm_next (ih has) (ha a (List.mem_singleton_self a))

/-- The words of a calm course are woven from its chunks. -/
theorem Course.woven_of_calm {c : Course} (hc : c.Calm) {w : List Bytes} (hw : c.Word g w) :
    Woven heartbeat c.chunks w := by
  cases c with
  | pending => exact hw ▸ .nil
  | refused e => exact hc.elim
  | passedOn resp => exact hw ▸ .nil
  | waiting => exact hw
  | relaying cs => exact hw
  | ended cs => exact hw
  | broken cs e => exact hc.elim
  | collecting status ce body => exact hc.elim
  | rejected status body reason => exact hc.elim

/-- **Heartbeats are invisible.** While nothing breaks off and the client is there, what has been
sent, with the frame that is being written, is read exactly as the chunks that the upstream
yielded: the same events, and the same unfinished event at the end. -/
theorem heartbeats_invisible (h₀ : handleStream g parts body now = some s₀)
    (hrun : Transition.run (step g) s₀ as = some s) (hbenign : ∀ a ∈ as, a.Benign)
    (hconn : s.connected = true) :
    read (s.received ++ s.queue ++ s.task.owed).flatten = read (yielded as).flatten ∧
      ((∀ frame next, s.task ≠ .writing frame next) →
        read (s.received ++ s.queue).flatten = read (yielded as).flatten) := by
  have hword := (refines_run h₀ hrun).word hconn
  have hwoven := Course.woven_of_calm (Course.calm_of hbenign) hword
  rw [chunks_run h₀ hrun] at hwoven
  have hread := hwoven.read_eq invisible_heartbeat
  refine ⟨hread, fun hidle ↦ ?_⟩
  have howed : s.task.owed = [] := by
    cases htask : s.task with
    | writing frame next => exact absurd htask (hidle frame next)
    | _ => rfl
  rwa [howed, List.append_nil] at hread

end

/-- A slow upstream sends an event in two pieces, and the second one is only the line feed of the
last terminator. The timer fires three times: in the window, before the answer, and between a
carriage return and its line feed. -/
def splitRun : List Action := [
  .clock (second 60), .timer, .start,
  .clock (second 120), .timer, .sent, .rearm,
  .upstream (.ok eventStream), .item (.chunk (utf8 "data: a\r\n\r".toList)), .sent, .rearm,
  .clock (second 200), .timer, .sent, .rearm,
  .item (.chunk (utf8 "\n".toList)), .sent, .rearm, .item .done]

theorem splitRun_spec :
    ∃ s₀ s, handleStream .reference (chatRequest ⟨utf8 "keep-alive".toList, by decide⟩) []
        (second 0) = some s₀ ∧
      Transition.run (step .reference) s₀ splitRun = some s ∧
      s.queue = [heartbeat, utf8 "data: a\r\n\r".toList, heartbeat, utf8 "\n".toList] ∧
      s.connected = true ∧ s.task = .finished :=
  ⟨_, _, rfl, rfl, rfl, rfl, rfl⟩

theorem splitRun_benign : ∀ a ∈ splitRun, a.Benign := by
  have hanswer : (Action.upstream (.ok eventStream)).Benign := ⟨eventStream, rfl, rfl, rfl⟩
  simp only [splitRun, List.forall_mem_cons]
  exact ⟨trivial, trivial, trivial, trivial, trivial, trivial, trivial, hanswer, trivial, trivial,
    trivial, trivial, trivial, trivial, trivial, trivial, trivial, trivial, trivial, fun a h ↦
      (nomatch h)⟩

/-- The client reads one event, whole. -/
theorem heartbeats_invisible_split :
    ∃ s₀ s, handleStream .reference (chatRequest ⟨utf8 "keep-alive".toList, by decide⟩) []
        (second 0) = some s₀ ∧
      Transition.run (step .reference) s₀ splitRun = some s ∧
      s.queue = [heartbeat, utf8 "data: a\r\n\r".toList, heartbeat, utf8 "\n".toList] ∧
      read (s.received ++ s.queue).flatten = ⟨[[utf8 "data: a".toList]], [], []⟩ := by
  obtain ⟨s₀, s, h₀, hrun, hqueue, hconn, htask⟩ := splitRun_spec
  refine ⟨s₀, s, h₀, hrun, hqueue, ?_⟩
  have hread := (heartbeats_invisible h₀ hrun splitRun_benign hconn).2 fun frame next h ↦ by
    rw [htask] at h
    cases h
  rw [hread]
  decide +kernel

/-! ### A stream that breaks off -/

section

variable {g : Gateway} {parts : Parts} {body : Bytes} {now : Instant} {s₀ s : State}
  {as : List Action}

/-- A stream error breaks the course off, and it stays broken. -/
theorem course_of_failed (h₀ : handleStream g parts body now = some s₀)
    (hrun : Transition.run (step g) s₀ as = some s) {e : IoError}
    (he : .item (.failed e) ∈ as) : ∃ cs, Course.of g as = .broken cs e := by
  revert he
  refine Transition.run_induction
    (P := fun as _ ↦ .item (.failed e) ∈ as → ∃ cs, Course.of g as = .broken cs e)
    (fun he ↦ (nomatch he)) ?_ hrun
  intro as a s s' hs ih hstep he
  rw [Course.of_concat]
  rcases List.mem_append.1 he with he | he
  · obtain ⟨cs, hcs⟩ := ih he
    exact ⟨cs, by rw [hcs]; rfl⟩
  · obtain rfl := List.mem_singleton.1 he
    cases Step.of_step hstep with
    | item htask =>
      have hfits := (refines_run h₀ hs).fits
      rw [htask] at hfits
      obtain ⟨cs, hcs, -⟩ := hfits
      exact ⟨cs, by rw [hcs]; rfl⟩

/-- What a client reads of a word that ends with an error event. -/
theorem read_error_word (hD : g.crates.SerdeJson) {cs w₀ close : List Bytes}
    (hw₀ : Woven heartbeat cs w₀) (hclose : Woven.Closes cs close) (status : Option StatusCode)
    (body : Option Bytes) (reason : Option Str) :
    read (w₀ ++ close ++ [ErrorEvent.build g.crates g.kind status body reason]).flatten =
      ⟨(read cs.flatten).events ++ closed (read cs.flatten).unfinished ++
        (read (ErrorEvent.build g.crates g.kind status body reason)).events, [], []⟩ := by
  have hbuild := ErrorEvent.read_build hD g.kind status body reason
  rw [List.flatten_append, List.flatten_singleton,
    hw₀.read_closed_append invisible_heartbeat hclose, hbuild]

/-- The upstream fails: it gives no response, or one that is no success, or a success in a coding
that cannot be decoded. -/
def Failing : Except Str (Response Incoming) → Prop
  | .error _ => True
  | .ok resp => resp.status.isSuccess = true → parseContentEncoding resp.headers = none

/-- The arguments of the error event for an upstream that fails after the window. -/
def Rejects (g : Gateway) (result : Except Str (Response Incoming)) (status : Option StatusCode)
    (body : Option Bytes) (reason : Option Str) : Prop :=
  match result with
  | .error e => status = none ∧ body = none ∧ reason = some e
  | .ok resp =>
    if resp.status.isSuccess then
      status = none ∧ body = none ∧ reason = some "unsupported upstream content-encoding".toList
    else
      status = some resp.status ∧ reason = none ∧ body.isSome = true ∧
        body = errorBody g (parseContentEncoding resp.headers) resp.body

/-- A course on which a failure has been or will be reported. -/
def Course.Reports (g : Gateway) (result : Except Str (Response Incoming)) : Course → Prop
  | .rejected status body reason => Rejects g result status body reason
  | .collecting status ce body => ∃ resp, result = .ok resp ∧ resp.status.isSuccess = false ∧
      status = resp.status ∧ ce = parseContentEncoding resp.headers ∧ body = resp.body
  | _ => False

theorem Course.reports_afterWindow {result : Except Str (Response Incoming)}
    (h : Failing result) : (Course.afterWindow result).Reports g result := by
  unfold Course.afterWindow
  cases result with
  | error e => exact ⟨rfl, rfl, rfl⟩
  | ok resp =>
    simp only
    split_ifs with hsuccess hce
    · rw [h hsuccess] at hce
      cases hce
    · simp only [Course.Reports, Rejects, if_pos hsuccess, and_self]
    · exact ⟨resp, rfl, Bool.eq_false_iff.2 hsuccess, rfl, rfl, rfl⟩

theorem Course.reports_next {result : Except Str (Response Incoming)} {c : Course}
    (h : c.Reports g result) (a : Action) : (c.next g a).Reports g result := by
  unfold Course.next
  split
  · exact h
  · exact h.elim
  · exact h.elim
  · exact h
  · exact h
  · exact h
  · obtain ⟨resp, rfl, hsuccess, rfl, rfl, rfl⟩ := h
    split
    · next b hbody =>
      simp only [Course.Reports, Rejects, hsuccess, hbody, Bool.false_eq_true, if_false,
        Option.isSome_some, and_self]
    · exact ⟨resp, rfl, hsuccess, rfl, rfl, rfl⟩
  · exact h

/-- A failure after the window is reported on the course of the run from then on. -/
theorem course_of_failing (h₀ : handleStream g parts body now = some s₀) {pre post : List Action}
    {result : Except Str (Response Incoming)} {s₁ : State}
    (hpre : Transition.run (step g) s₀ pre = some s₁) (hwait : s₁.task = .looping .waiting)
    (hfail : Failing result) :
    (Course.of g (pre ++ .upstream result :: post)).Reports g result := by
  have hcourse : Course.of g pre = .waiting := by
    have hfits := (refines_run h₀ hpre).fits
    rwa [hwait] at hfits
  induction post using List.reverseRecOn with
  | nil =>
    rw [Course.of_concat, hcourse]
    exact Course.reports_afterWindow hfail
  | append_singleton post a ih =>
    rw [← List.cons_append, ← List.append_assoc, Course.of_concat]
    exact Course.reports_next ih a

/-- **An error event stands alone.** When the client stays to the end, it reads after a stream
error: the events of what the upstream yielded, the unfinished event if it has a line, and then
what the bytes of the error event mean by themselves, with nothing left open. It reads the error
event alone when the upstream fails while the client is kept waiting. -/
theorem error_event_stands_alone (hD : g.crates.SerdeJson)
    (h₀ : handleStream g parts body now = some s₀)
    (hrun : Transition.run (step g) s₀ as = some s) (hconn : s.connected = true)
    (htask : s.task = .finished) :
    (∀ e, .item (.failed e) ∈ as →
      read (s.received ++ s.queue).flatten =
        ⟨(read (yielded as).flatten).events ++ closed (read (yielded as).flatten).unfinished ++
          (read (ErrorEvent.build g.crates g.kind none none (some e.message))).events, [], []⟩) ∧
    (∀ pre result post s₁, as = pre ++ .upstream result :: post →
      Transition.run (step g) s₀ pre = some s₁ → s₁.task = .looping .waiting → Failing result →
      ∃ status body reason, Rejects g result status body reason ∧
        read (s.received ++ s.queue).flatten =
          ⟨(read (ErrorEvent.build g.crates g.kind status body reason)).events, [], []⟩) := by
  have hrefines := refines_run h₀ hrun
  have hword := hrefines.word hconn
  have hfits := hrefines.fits
  rw [htask] at hword hfits
  have hword' := (word_append_nil _ _).1 hword
  have hfinal := hfits hconn
  constructor
  · intro e he
    obtain ⟨cs, hcs⟩ := course_of_failed h₀ hrun he
    have hchunks := chunks_run h₀ hrun
    rw [hcs] at hword' hchunks
    obtain ⟨w₀, close, hw₀, hclose, hw⟩ := hword'
    rw [hw, ← hchunks]
    exact read_error_word hD hw₀ hclose none none (some e.message)
  · intro pre result post s₁ has hpre hwait hfail
    have hreports : (Course.of g as).Reports g result := by
      rw [has]
      exact course_of_failing h₀ hpre hwait hfail
    -- a course that reports a failure and is over has been rejected
    cases hcourse : Course.of g as with
    | rejected status body reason =>
      rw [hcourse] at hword' hreports
      obtain ⟨w₀, hw₀, hw⟩ := hword'
      have hread := read_error_word hD hw₀ (.inl ⟨rfl, rfl, rfl⟩) status body reason
      rw [List.append_nil] at hread
      refine ⟨status, body, reason, hreports, ?_⟩
      rw [hw, hread]
      rfl
    | collecting status ce body =>
      rw [hcourse] at hfinal
      exact hfinal.elim
    | _ =>
      rw [hcourse] at hreports
      exact hreports.elim

end

/-- The client of a stream that broke off inside a line reads that line as an event, and then the
error event. -/
theorem error_event_after_broken_run :
    ∃ s₀ s, handleStream .reference (chatRequest ⟨utf8 "keep-alive".toList, by decide⟩) []
        (second 0) = some s₀ ∧
      Transition.run (step .reference) s₀ brokenRun = some s ∧
      read (s.received ++ s.queue).flatten =
        ⟨[utf8 "data: hi".toList] :: (read (ErrorEvent.build .reference .chatCompletions none none
          (some "unexpected end of file".toList))).events, [], []⟩ := by
  obtain ⟨s₀, s, h₀, hrun, -, -, hconn, htask⟩ := brokenRun_spec
  refine ⟨s₀, s, h₀, hrun, ?_⟩
  have hread := (error_event_stands_alone Crates.serdeJson_reference h₀ hrun hconn htask).1
    ⟨.unexpectedEof, "unexpected end of file".toList⟩ (by simp [brokenRun])
  have hopen : read (yielded brokenRun).flatten = ⟨[], [], utf8 "data: hi".toList⟩ := by
    decide +kernel
  rw [hread, hopen]
  rfl

end KeepSse.Sse
