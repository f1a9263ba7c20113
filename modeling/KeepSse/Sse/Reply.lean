import KeepSse.HopByHop
import KeepSse.Sse.Refinement
import KeepSse.UpstreamHead

/-!
# The head of the response

A run answers once. Where the body is a stream that the gateway writes, the head is one that fits
such a body: it declares no length, no content coding and no transfer coding, and asks proxies not
to buffer (`streamed_head`).

Where the upstream answers within the window by anything that is not relayed, the SSE path is the
buffered proxy: the same request has been made, the client gets the same response, and nothing else
is sent (`window_transparent`). So it does no harm to take the SSE path for a request whose answer
turns out not to be a stream.

## What each result rests on

* `streamed_head` rests on where a head can come from: the end of the window, or an answer within it
  (`Heads`, `heads_run`). There are two heads of streams, and each fits (`fitsStream_keepalive`,
  `fitsStream_passthrough`). The second is the upstream's with fields taken out, so whether it still
  declares an event stream depends on the upstream's `Connection` fields. That a head stays what it
  is when it has been sent is an invariant of the steps (`reply_of_run`).
* `window_transparent` rests on the branches of the handler: it answers what is not relayed by the
  function that the proxy uses as well (`answer_of_not_relayable`), and spawns nothing. From there
  on the state is one that no step leaves (`Answered`, `Step.answered`). That the request is the
  same is a result about heads (`buildUpstreamRequest_eq`).
-/

namespace KeepSse.Sse

open Text Http EventStream

/-- An answer that is relayed as events when it comes within the window. -/
def Relayable : Except Str (Response Incoming) → Prop
  | .ok resp => resp.status.isSuccess = true ∧ isEventStream resp.headers = true ∧
      (parseContentEncoding resp.headers).isSome = true
  | .error _ => False

/-- Within the window an answer that is not relayed is proxied. -/
theorem answer_of_not_relayable (g : Gateway) {result : Except Str (Response Incoming)}
    (h : ¬Relayable result) : answer g result = (proxyAnswer g.crates result, .finished) := by
  cases result with
  | error e => rfl
  | ok resp =>
    simp only [answer, proxyAnswer]
    split_ifs with hsse
    · cases hce : parseContentEncoding resp.headers with
      | none => rfl
      | some ce =>
        rw [Bool.and_eq_true] at hsse
        exact absurd ⟨hsse.1, hsse.2, by rw [hce]; rfl⟩ h
    · rfl

/-- And one that is relayed gets the head of a decoded stream. -/
theorem answer_of_relayable (g : Gateway) {result : Except Str (Response Incoming)}
    (h : Relayable result) : ∃ resp, result = .ok resp ∧
      answer g result = (passthroughSseResponse resp, .spawned (.relaying .new)) := by
  cases result with
  | error e => exact h.elim
  | ok resp =>
    obtain ⟨hsuccess, hsse, hce⟩ := h
    obtain ⟨ce, hce⟩ := Option.isSome_iff_exists.1 hce
    refine ⟨resp, rfl, ?_⟩
    simp only [answer, hsuccess, hsse, Bool.and_self, if_true, hce]

/-! ### Where a head comes from -/

/-- The heads that a run may have answered with. -/
inductive Heads (g : Gateway) (as : List Action) : Response BoxBody → Prop where
  | keepalive : Heads g as keepaliveResponse
  | relayed {resp : Response Incoming} (hans : .upstream (.ok resp) ∈ as)
    (hresp : Relayable (.ok resp)) : Heads g as (passthroughSseResponse resp)
  | proxied {result : Except Str (Response Incoming)} (hans : .upstream result ∈ as)
    (hresult : ¬Relayable result) : Heads g as (proxyAnswer g.crates result)

section

variable {g : Gateway} {parts : Parts} {body : Bytes} {now : Instant} {s₀ s s' : State}
  {as : List Action} {a : Action}

theorem Heads.concat {head : Response BoxBody} (h : Heads g as head) (a : Action) :
    Heads g (as ++ [a]) head := by
  cases h with
  | keepalive => exact .keepalive
  | relayed hans hresp => exact .relayed (List.mem_append_left _ hans) hresp
  | proxied hans hresult => exact .proxied (List.mem_append_left _ hans) hresult

theorem heads_answer (result : Except Str (Response Incoming)) :
    Heads g (as ++ [.upstream result]) (answer g result).1 := by
  have hmem : .upstream result ∈ as ++ [.upstream result] :=
    List.mem_append_right _ (List.mem_singleton_self _)
  by_cases h : Relayable result
  · obtain ⟨resp, rfl, heq⟩ := answer_of_relayable g h
    rw [heq]
    exact .relayed hmem h
  · rw [answer_of_not_relayable g h]
    exact .proxied hmem h

/-- A head comes from the end of the window or from an answer within it. -/
theorem heads_run (h₀ : handleStream g parts body now = some s₀)
    (hrun : Transition.run (step g) s₀ as = some s) : ∀ head ∈ s.reply, Heads g as head := by
  refine Transition.run_induction (P := fun as s ↦ ∀ head ∈ s.reply, Heads g as head) ?_ ?_ hrun
  · obtain ⟨req, -, hs⟩ := Option.bind_eq_some_iff.1 h₀
    obtain rfl := Option.some.inj hs
    intro head hhead
    cases hhead
  · intro as a s s' _ ih hstep head hhead
    cases Step.of_step hstep with
    | elapse htask hdue =>
      obtain rfl := Option.some.inj hhead
      exact .keepalive
    | @answer deadline result htask =>
      obtain rfl := Option.some.inj hhead
      exact heads_answer result
    | _ => exact (ih head hhead).concat _

/-- A head that has been sent stays as it is. -/
theorem reply_of_run (h₀ : handleStream g parts body now = some s₀)
    (hrun : Transition.run (step g) s₀ as = some s) {head : Response BoxBody}
    (hreply : s.reply = some head) {bs : List Action}
    (hrest : Transition.run (step g) s bs = some s') : s'.reply = some head := by
  have hwindow {cs : List Action} {s₁ : State} (hrun : Transition.run (step g) s₀ cs = some s₁)
      (hreply : s₁.reply = some head) (deadline : Instant) : s₁.task ≠ .window deadline := by
    intro htask
    have hrefines := refines_run h₀ hrun
    have hfits := hrefines.fits
    rw [htask] at hfits
    have hnone : s₁.reply = none := by
      have hanswer := hrefines.answer
      rwa [show Course.of g cs = .pending from hfits] at hanswer
    rw [hnone] at hreply
    cases hreply
  have hrun' : Transition.run (step g) s₀ (as ++ bs) = some s' := by
    rw [Transition.run_append, hrun]
    exact hrest
  have hnil : Transition.run (step g) s₀ (as ++ []) = some s := by rwa [List.append_nil]
  refine (Transition.run_induction
    (P := fun bs s₁ ↦ Transition.run (step g) s₀ (as ++ bs) = some s₁ ∧ s₁.reply = some head)
    ⟨hnil, hreply⟩ ?_ hrest).2
  rintro bs a s₁ s₂ - ⟨hrun₁, hreply₁⟩ hstep
  refine ⟨by rw [← List.append_assoc]; exact Transition.run_concat.2 ⟨s₁, hrun₁, hstep⟩, ?_⟩
  cases Step.of_step hstep with
  | elapse htask hdue => exact absurd htask (hwindow hrun₁ hreply₁ _)
  | answer htask => exact absurd htask (hwindow hrun₁ hreply₁ _)
  | _ => exact hreply₁

/-! ### Heads of streams -/

/-- A head that fits a body which the gateway writes as it comes, in clear. -/
structure FitsStream (head : Response BoxBody) : Prop where
  success : head.status.isSuccess = true
  no_length : head.headers.getAll HeaderName.contentLength = []
  no_coding : head.headers.getAll HeaderName.contentEncoding = []
  no_connection : head.headers.getAll HeaderName.connection = []
  /-- Among them is `Transfer-Encoding`. -/
  no_hopByHop : ∀ n ∈ hopByHop, head.headers.getAll n = []
  unbuffered : head.headers.getAll xAccelBuffering = [noBuffering]

theorem fitsStream_keepalive : FitsStream keepaliveResponse := by
  refine ⟨rfl, ?_, ?_, ?_, ?_, ?_⟩
  all_goals decide +kernel

theorem fitsStream_passthrough {resp : Response Incoming}
    (hsuccess : resp.status.isSuccess = true) : FitsStream (passthroughSseResponse resp) where
  success := hsuccess
  no_length := by
    rw [getAll_passthroughSseResponse, if_neg (by decide), if_pos (.inl rfl)]
  no_coding := by
    rw [getAll_passthroughSseResponse, if_neg (by decide), if_pos (.inr rfl)]
  no_connection := by
    have hself : IsHopByHop resp.headers HeaderName.connection := .inl rfl
    rw [getAll_passthroughSseResponse, if_neg (by decide), if_neg (by decide),
      getAll_stripHopByHop, if_pos hself]
  no_hopByHop n hn := by
    have hself : IsHopByHop resp.headers n := .inr (.inr hn)
    have hne : n ≠ xAccelBuffering := by
      rintro rfl
      exact absurd hn (by decide)
    rw [getAll_passthroughSseResponse, if_neg hne, getAll_stripHopByHop, if_pos hself, ite_self]
  unbuffered := by rw [getAll_passthroughSseResponse, if_pos rfl]

/-- The media type of a decoded stream is the upstream's, unless the upstream lists the field as one
of its connection. -/
theorem isEventStream_passthrough {resp : Response Incoming}
    (hsse : isEventStream resp.headers = true)
    (hlisted : HeaderName.contentType ∉ connectionList resp.headers) :
    isEventStream (passthroughSseResponse resp).headers = true := by
  have hkept : ¬IsHopByHop resp.headers HeaderName.contentType := by
    rintro (h | h | h)
    · exact absurd h (by decide)
    · exact hlisted h
    · exact absurd h (by decide)
  have hget : (passthroughSseResponse resp).headers.get HeaderName.contentType =
      resp.headers.get HeaderName.contentType := by
    rw [HeaderMap.get, getAll_passthroughSseResponse, if_neg (by decide), if_neg (by decide),
      getAll_stripHopByHop, if_neg hkept, HeaderMap.get]
  rw [isEventStream, hget]
  exact hsse

/-- The head of a stream fits its body. -/
theorem fitsStream_run (h₀ : handleStream g parts body now = some s₀)
    (hrun : Transition.run (step g) s₀ as = some s) {head : Response BoxBody}
    (hreply : s.reply = some head) (hchannel : head.body = .channel) : FitsStream head := by
  cases heads_run h₀ hrun head hreply with
  | keepalive => exact fitsStream_keepalive
  | relayed hans hresp => exact fitsStream_passthrough hresp.1
  | @proxied result hans hresult =>
    -- a proxied answer has a body of its own
    cases result <;> cases hchannel

/-- **The head of a stream fits its body.** When a run has answered with a stream of its own, the
head is final, it declares neither a length nor a coding nor a field of the connection, and it has
the media type of an event stream, unless the upstream's own `Connection` field took that away. -/
theorem streamed_head (h₀ : handleStream g parts body now = some s₀)
    (hrun : Transition.run (step g) s₀ as = some s) {head : Response BoxBody}
    (hreply : s.reply = some head) (hchannel : head.body = .channel) :
    FitsStream head ∧
      (isEventStream head.headers = true ∨ ∃ resp, .upstream (.ok resp) ∈ as ∧
        HeaderName.contentType ∈ connectionList resp.headers) ∧
      ∀ bs s', Transition.run (step g) s bs = some s' → s'.reply = some head := by
  have hstays (bs : List Action) (s' : State)
      (hrest : Transition.run (step g) s bs = some s') : s'.reply = some head :=
    reply_of_run h₀ hrun hreply hrest
  refine ⟨fitsStream_run h₀ hrun hreply hchannel, ?_, hstays⟩
  cases heads_run h₀ hrun head hreply with
  | keepalive => exact .inl (by decide +kernel)
  | @relayed resp hans hresp =>
    by_cases hlisted : HeaderName.contentType ∈ connectionList resp.headers
    · exact .inr ⟨resp, hans, hlisted⟩
    · exact .inl (isEventStream_passthrough hresp.2.1 hlisted)
  | @proxied result hans hresult => cases result <;> cases hchannel

end

/-- An upstream that answers at once has its head passed on, without what does not fit. -/
theorem streamed_head_passthrough :
    ∃ s₀ s, handleStream .reference (chatRequest ⟨utf8 "keep-alive".toList, by decide⟩) []
        (second 0) = some s₀ ∧
      Transition.run (step .reference) s₀ [.upstream (.ok eventStream)] = some s ∧
      s.reply = some (passthroughSseResponse eventStream) ∧
      FitsStream (passthroughSseResponse eventStream) := by
  obtain ⟨s₀, s, h₀, hrun, hreply⟩ :
      ∃ s₀ s, handleStream .reference (chatRequest ⟨utf8 "keep-alive".toList, by decide⟩) []
          (second 0) = some s₀ ∧
        Transition.run (step .reference) s₀ [.upstream (.ok eventStream)] = some s ∧
        s.reply = some (passthroughSseResponse eventStream) :=
    ⟨_, _, rfl, rfl, rfl⟩
  exact ⟨s₀, s, h₀, hrun, hreply, (streamed_head h₀ hrun hreply rfl).1⟩

/-! ### The window is transparent -/

section

variable {g : Gateway} {parts : Parts} {body : Bytes} {now : Instant} {s₀ s s' : State}
  {a : Action}

/-- The gateway has answered, and there is nothing more to do. -/
structure Answered (head : Response BoxBody) (s : State) : Prop where
  reply : s.reply = some head
  task : s.task = .finished
  received : s.received = []
  queue : s.queue = []

theorem Step.answered {head : Response BoxBody} (h : Step g s a s') (hs : Answered head s) :
    Answered head s' := by
  obtain ⟨hreply, htask, hreceived, hqueue⟩ := hs
  cases h with
  | clock hle => exact ⟨hreply, htask, hreceived, hqueue⟩
  | disconnect hconn =>
    refine ⟨hreply, ?_, hreceived, rfl⟩
    simp only [htask]
    rfl
  | recv hqueue' hconn =>
    rw [hqueue] at hqueue'
    cases hqueue'
  | elapse htask' | heartbeat htask' | start htask' | answer htask' | bridge htask' | item htask'
  | collected htask' | sent htask' | refused htask' | rearm htask' | overflow htask' =>
    rw [htask] at htask'
    cases htask'

/-- **Within the window the SSE path is the buffered proxy.** If the upstream answers in time, and
not by an event stream that can be decoded, the one request made is the one that the buffered proxy
makes, the client gets the response that it gives, and no frame is ever sent. -/
theorem window_transparent (h₀ : handleStream g parts body now = some s₀) {p q : List Action}
    {s₁ : State} (hp : Transition.run (step g) s₀ p = some s₁) {deadline : Instant}
    (htask : s₁.task = .window deadline) {result : Except Str (Response Incoming)}
    (hresult : ¬Relayable result)
    (hrun : Transition.run (step g) s₀ (p ++ .upstream result :: q) = some s) :
    s.reply = some (proxyAnswer g.crates result) ∧
      (∃ req, proxyBuffered g.crates g.cfg parts body = some req ∧ s.requests = [req]) ∧
      s.received = [] ∧ s.queue = [] ∧ s.task = .finished := by
  obtain ⟨req, hreq, hrequests⟩ := requests_run h₀ hrun
  rw [buildUpstreamRequest_eq] at hreq
  -- nothing has been sent before the answer
  have hrefines := refines_run h₀ hp
  have hfits := hrefines.fits
  rw [htask] at hfits
  obtain ⟨w, hw, hle⟩ := hrefines.sent
  rw [show Course.of g p = .pending from hfits] at hw
  obtain rfl : w = [] := hw
  obtain ⟨hreceived, hqueue⟩ := List.append_eq_nil_iff.1 (List.prefix_nil.1 hle)
  rw [Transition.run_append, hp, Option.bind_some, Transition.run, Option.bind_eq_some_iff] at hrun
  obtain ⟨s₂, hstep, hq⟩ := hrun
  have hanswered : Answered (proxyAnswer g.crates result) s₂ := by
    have hanswer := answer_of_not_relayable g hresult
    cases Step.of_step hstep with
    | answer htask' =>
      rw [hanswer]
      exact ⟨rfl, rfl, hreceived, hqueue⟩
    | bridge htask' =>
      rw [htask] at htask'
      cases htask'
  obtain ⟨hreply, hdone, hreceived', hqueue'⟩ :=
    Transition.run_induction (P := fun _ s ↦ Answered (proxyAnswer g.crates result) s) hanswered
      (fun _ _ _ _ _ ih hstep ↦ (Step.of_step hstep).answered ih) hq
  exact ⟨hreply, ⟨req, hreq, hrequests⟩, hreceived', hqueue', hdone⟩

end

/-- An answer that is no event stream. -/
def plainAnswer : Response Incoming where
  status := StatusCode.ok
  headers := [(HeaderName.contentType, applicationJson)]
  body := ⟨[.data (utf8 "null".toList)], none⟩

/-- Half a minute later it is passed on. -/
theorem window_transparent_plain :
    ∃ s₀ s₁ s deadline, handleStream .reference
        (chatRequest ⟨utf8 "keep-alive".toList, by decide⟩) [] (second 0) = some s₀ ∧
      Transition.run (step .reference) s₀ [.clock (second 30)] = some s₁ ∧
      s₁.task = .window deadline ∧
      Transition.run (step .reference) s₀
        ([.clock (second 30)] ++ .upstream (.ok plainAnswer) :: [.clock (second 90)]) = some s ∧
      s.reply = some (passthroughResponse plainAnswer) ∧ s.received = [] := by
  obtain ⟨s₀, s₁, s, deadline, h₀, hp, htask, hrun⟩ :
      ∃ s₀ s₁ s deadline, handleStream .reference
          (chatRequest ⟨utf8 "keep-alive".toList, by decide⟩) [] (second 0) = some s₀ ∧
        Transition.run (step .reference) s₀ [.clock (second 30)] = some s₁ ∧
        s₁.task = .window deadline ∧
        Transition.run (step .reference) s₀
          ([.clock (second 30)] ++ .upstream (.ok plainAnswer) :: [.clock (second 90)]) = some s :=
    ⟨_, _, _, _, rfl, rfl, rfl, rfl⟩
  have hresult : ¬Relayable (.ok plainAnswer) := fun h ↦ absurd h.2.1 (by decide)
  obtain ⟨hreply, -, hreceived, -, -⟩ := window_transparent h₀ hp htask hresult hrun
  exact ⟨s₀, s₁, s, deadline, h₀, hp, htask, hrun, hreply, hreceived⟩

end KeepSse.Sse
