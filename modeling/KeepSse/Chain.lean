import KeepSse.Safety
import KeepSse.Sse.Decoded
import KeepSse.Sse.Reply
import Mathlib.Logic.Relation

/-!
# Gateways in a row

The upstream of a gateway may be another gateway. Neither of them knows, and neither has to: a
request that one of them serves as a stream is served as a stream by those behind it (`rerouted`),
and the client at the end of the row reads what it would read with a single gateway
(`chained_whole`). The heartbeats and the error event of one gateway are stream data for the next.

## Over the wire

What a gateway sends reaches the next one over the wire. The library that writes it there frames the
message, and may set the fields that say how (`framing`); it leaves the others as they are. That is
all that is relied on between two gateways, in a structure for each direction (`Arrives`,
`Delivered`).

## What the two results rest on

* `rerouted` rests on what dispatch looks at: the target, two header fields and the body
  (`handle_stream_iff`). A request that has kept these is served as it was by any gateway that has
  the room (`Kept.handle_eq`), and a gateway on the way lets it keep them (`Passes.kept`) unless its
  sender lists one of the fields in `Connection`. The room is a condition, because a body over the
  limit is not probed; and so is a limit short of the largest, because that one overflows (`Roomy`).
* `chained_whole` rests on the result for one gateway (`Sse.read_relayed`), and on what a gateway
  sends being **plain**: a success in the identity coding, and complete (`Relay.plain`). A plain
  response is relayed event for event (`Plain.relayedReading_eq`), so that every gateway after the
  first changes nothing. Where each of them cuts its input and when its timer fires is left open.

Both are inductions on the row. Of each gateway in the second one it is known that its task has come
to an end and that its client has stayed (`Relay`); nothing of this kind is needed in the first.
-/

namespace KeepSse

open Text Http EventStream

/-! ### Over the wire -/

/-- The names of the fields that the library may set when it writes a message. -/
def framing : List Str := [
  "connection".toList,
  "content-length".toList,
  "transfer-encoding".toList,
  "date".toList]

/-- How a request arrives that has been sent with a complete body. -/
structure Arrives (sent : Request BoxBody) (req : Request Incoming) : Prop where
  method : req.parts.method = sent.parts.method
  target : req.parts.uri.pathAndQuery? = sent.parts.uri.pathAndQuery?
  fields : ∀ n, n.text ∉ framing → req.parts.headers.getAll n = sent.parts.headers.getAll n
  body : sent.body = .full req.body.bytes
  complete : req.body.failure = none
  /-- A length that is declared is the length of the body. -/
  length : ∀ cl, contentLength req.parts.headers = some cl → cl = req.body.bytes.length

/-- How a response arrives whose body has been sent frame by frame, to its end. -/
structure Delivered (head : Response BoxBody) (data : Bytes) (resp : Response Incoming) : Prop where
  status : resp.status = head.status
  fields : ∀ n, n.text ∉ framing → resp.headers.getAll n = head.headers.getAll n
  body : resp.body.bytes = data
  complete : resp.body.failure = none

/-! ### Requests -/

section

variable {profile profile' : Profile} {D : Crates} {cfg cfg' : ResolvedConfig}
  {req req' : Request Incoming} {kind : EndpointKind} {parts : Parts} {body : Bytes}

/-- When dispatch takes the SSE path. -/
theorem handle_stream_iff :
    handle profile D cfg req = some (.handleStream kind parts body) ↔
      matchEndpoint req.parts.method req.parts.uri.path req.parts.uri.query = some kind ∧
      ¬ DeclaresMore cfg req ∧ ¬ Outgrows req.body cfg.maxProbeBody.toNat ∧
      req.body.failure = none ∧ Asks profile D cfg req kind ∧ parts = req.parts ∧
      body = req.body.bytes := by
  constructor
  · intro h
    have hproxy : handle profile D cfg req ≠ some (.proxy req) := by
      rw [h]
      simp
    rw [ne_eq, handle_proxy_iff, not_or] at hproxy
    obtain ⟨kind', hkind⟩ := Option.ne_none_iff_exists'.1 hproxy.1
    have hprobes : Probes profile D cfg req kind' (handle profile D cfg req) :=
      handle_probes hkind hproxy.2
    rw [h] at hprobes
    cases hprobes with
    | stream hlimit hfailure hasks =>
      exact ⟨hkind, hproxy.2, hlimit, hfailure, hasks, rfl, rfl⟩
  · rintro ⟨hkind, hdeclared, hlimit, hfailure, hasks, rfl, rfl⟩
    exact ((handle_probes hkind hdeclared).stream_iff hlimit hfailure).2 hasks

/-- A gateway has at least this much room to probe, and decodes what it probes. -/
structure Roomy (limit : UInt64) (cfg : ResolvedConfig) : Prop where
  le : limit.toNat ≤ cfg.maxProbeBody.toNat
  /-- At the largest limit of all, decoding returns nothing. -/
  ne_max : cfg.maxProbeBody.toNat ≠ 2 ^ 64 - 1

/-- What is decoded within a limit is decoded within a larger one. -/
theorem decodeBytes_mono {coding : Coding} {input out : Bytes}
    (hroomy : Roomy cfg.maxProbeBody cfg')
    (h : decodeBytes profile D coding input cfg.maxProbeBody = some (.ok out)) :
    decodeBytes profile' D coding input cfg'.maxProbeBody = some (.ok out) := by
  have hle := hroomy.le
  have hmax := hroomy.ne_max
  have hlt := cfg'.maxProbeBody.toNat_lt
  have hexact : ExactWithin (coding.decoder D input) cfg.maxProbeBody.toNat
      (decodeBytes profile D coding input cfg.maxProbeBody) :=
    (decodeBytes_exactWithin_iff ..).2 (.inr (.inl (by omega)))
  have hexact' : ExactWithin (coding.decoder D input) cfg'.maxProbeBody.toNat
      (decodeBytes profile' D coding input cfg'.maxProbeBody) :=
    (decodeBytes_exactWithin_iff ..).2 (.inr (.inl hmax))
  obtain ⟨hfailure, hlength, hout⟩ := (hexact.ok out).1 h
  exact (hexact'.ok out).2 ⟨hfailure, Nat.le_trans hlength hle, hout⟩

/-- A request that asks for a stream asks any roomier gateway, and so does one with the same body
that has kept the two fields that are looked at. -/
theorem Asks.of_roomy (hempty : D.deserializeStruct [] = none) (h : Asks profile D cfg req kind)
    (hroomy : Roomy cfg.maxProbeBody cfg')
    (haccept : req'.parts.headers.getAll HeaderName.accept =
      req.parts.headers.getAll HeaderName.accept)
    (hcoding : req'.parts.headers.getAll HeaderName.contentEncoding =
      req.parts.headers.getAll HeaderName.contentEncoding)
    (hbody : req'.body.bytes = req.body.bytes) : Asks profile' D cfg' req' kind := by
  rcases h with hgemini | haccepts | ⟨b, hb, hflag⟩
  · exact .inl hgemini
  · refine .inr (.inl ?_)
    rwa [acceptsEventStream, HeaderMap.get, haccept]
  · have hparse : parseContentEncoding req'.parts.headers =
        parseContentEncoding req.parts.headers := by
      rw [parseContentEncoding, hcoding, parseContentEncoding]
    refine .inr (.inr ⟨b, ?_, hflag⟩)
    rw [Probed] at hb ⊢
    rw [hparse, hbody]
    cases hce : parseContentEncoding req.parts.headers with
    | none =>
      rw [hce] at hb
      exact hb
    | some ce =>
      rw [hce] at hb
      rcases hb with hb | ⟨rfl, -⟩
      · exact .inl (decodeBytes_mono hroomy hb)
      · -- what cannot be decoded asks for nothing
        rw [probeStreamFlag, hempty] at hflag
        cases hflag

/-- What a request that arrives has kept of the one that was sent. -/
structure Kept (req req' : Request Incoming) : Prop where
  method : req'.parts.method = req.parts.method
  target : req'.parts.uri.pathAndQuery? = req.parts.uri.pathAndQuery?
  accept : req'.parts.headers.getAll HeaderName.accept =
    req.parts.headers.getAll HeaderName.accept
  coding : req'.parts.headers.getAll HeaderName.contentEncoding =
    req.parts.headers.getAll HeaderName.contentEncoding
  body : req'.body.bytes = req.body.bytes
  complete : req'.body.failure = none
  length : ∀ cl, contentLength req'.parts.headers = some cl →
    contentLength req.parts.headers = some cl ∨ cl = req'.body.bytes.length

theorem Kept.refl (h : req.body.failure = none) : Kept req req :=
  ⟨rfl, rfl, rfl, rfl, rfl, h, fun _ hcl ↦ .inl hcl⟩

/-- **A request that has kept this is served as it was**, by any gateway with the room. -/
theorem Kept.handle_eq (hkept : Kept req req') (hempty : D.deserializeStruct [] = none)
    (h : handle profile D cfg req = some (.handleStream kind parts body))
    (hroomy : Roomy cfg.maxProbeBody cfg') :
    handle profile' D cfg' req' = some (.handleStream kind req'.parts body) := by
  obtain ⟨hkind, hdeclared, hlimit, -, hasks, -, rfl⟩ := handle_stream_iff.1 h
  have hlength : req'.body.bytes.length ≤ cfg'.maxProbeBody.toNat := by
    rw [hkept.body]
    exact Nat.le_trans (Nat.not_lt.1 (outgrows_iff.not.1 hlimit)) hroomy.le
  refine handle_stream_iff.2 ⟨?_, ?_, outgrows_iff.not.2 (Nat.not_lt.2 hlength), hkept.complete,
    hasks.of_roomy hempty hroomy hkept.accept hkept.coding hkept.body, rfl, hkept.body.symm⟩
  · rwa [hkept.method, Uri.path, Uri.query, hkept.target]
  · rintro ⟨cl, hcl, hlt⟩
    rcases hkept.length cl hcl with hcl | rfl
    · exact hdeclared ⟨cl, hcl, Nat.lt_of_le_of_lt hroomy.le hlt⟩
    · exact Nat.not_lt.2 hlength hlt

end

/-- A request passes a gateway that has at least this much room: it is dispatched, sent upstream,
and arrives there. Its sender does not list in `Connection` the fields that are looked at. -/
inductive Passes (D : Crates) (limit : UInt64) (req req' : Request Incoming) : Prop where
  | intro {profile : Profile} {config : Config} {cfg : ResolvedConfig} {now : Instant} {exit : Exit}
    {sent : Request BoxBody} (hcfg : ResolvedConfig.parse D config = .ok cfg)
    (hroomy : Roomy limit cfg) (haccept : HeaderName.accept ∉ connectionList req.parts.headers)
    (hcoding : HeaderName.contentEncoding ∉ connectionList req.parts.headers)
    (hexit : handle profile D cfg req = some exit)
    (hsent : exit.requests profile D cfg now = some [sent]) (harrives : Arrives sent req')

section

variable {profile : Profile} {D : Crates} {limit : UInt64} {cfg : ResolvedConfig}
  {req req' : Request Incoming} {kind : EndpointKind} {body : Bytes}

/-- The fields that a gateway looks at are passed on. -/
theorem getAll_sent {n : HeaderName} {headers : HeaderMap} (v : HeaderValue)
    (hn : n ∉ HeaderName.connection :: HeaderName.host :: hopByHop)
    (hlisted : n ∉ connectionList headers) :
    (stripHopByHop ((headers.remove HeaderName.host).insert HeaderName.host v)).getAll n =
      headers.getAll n := by
  simp only [List.mem_cons, not_or] at hn
  obtain ⟨hconnection, hhost, hfixed⟩ := hn
  have hkept : ¬IsHopByHop headers n := by
    simp [IsHopByHop, hconnection, hlisted, hfixed]
  rw [getAll_upstream_headers, if_neg hkept, HeaderMap.getAll_insert_of_ne _ _ hhost,
    HeaderMap.getAll_remove_of_ne _ hhost]

/-- A request of a streaming interface has a path. -/
theorem pathAndQuery?_of_matchEndpoint {method : Method} {uri : Uri}
    (h : matchEndpoint method uri.path uri.query = some kind) :
    ∃ p, uri.pathAndQuery? = some p := by
  rw [← Option.ne_none_iff_exists']
  intro hnone
  have hpath : uri.path = [] := by rw [Uri.path, hnone]
  have hquery : uri.query = none := by rw [Uri.query, hnone, Option.bind_none]
  rw [hpath, hquery] at h
  unfold matchEndpoint at h
  by_cases hpost : method ≠ Method.post
  · rw [if_pos hpost] at h
    cases h
  · rw [if_neg hpost] at h
    exact absurd (h.symm.trans rfl) (Option.some_ne_none kind)

/-- A request of the SSE path keeps on its way what the next gateway looks at. -/
theorem Passes.kept (hpasses : Passes D limit req req')
    (htarget : D.parsePathAndQuery (requestTarget req.parts).text = some (requestTarget req.parts))
    (hstream : ∀ profile cfg, Roomy limit cfg →
      handle profile D cfg req = some (.handleStream kind req.parts body)) : Kept req req' := by
  cases hpasses with
  | @intro profile config cfg now exit sent hcfg hroomy haccept hcoding hexit hsent harrives =>
    have hexit' := hexit.symm.trans (hstream profile cfg hroomy)
    obtain rfl := Option.some.inj hexit'
    obtain ⟨hkind, -, -, -, -, -, rfl⟩ := handle_stream_iff.1 hexit
    obtain ⟨a, v, -, -, hreq⟩ := proxyReq_eq hcfg htarget
    obtain ⟨st, hst, hrequests⟩ := Option.map_eq_some_iff.1 hsent
    obtain ⟨r, hr, hone⟩ := Sse.requests_run hst (Transition.run_nil _ st)
    obtain rfl : r = sent := by simpa [hrequests] using hone.symm
    rw [buildUpstreamRequest_eq, hreq] at hr
    obtain rfl := Option.some.inj hr
    obtain ⟨p, hp⟩ := pathAndQuery?_of_matchEndpoint hkind
    -- what the hop-by-hop filter leaves is not set by the library
    have hfield {n : HeaderName} (hn : n ∉ HeaderName.connection :: HeaderName.host :: hopByHop)
        (hframing : n.text ∉ framing) (hlisted : n ∉ connectionList req.parts.headers) :
        req'.parts.headers.getAll n = req.parts.headers.getAll n := by
      rw [harrives.fields n hframing]
      simp only [getAll_sent v hn hlisted]
    exact {
      method := harrives.method
      target := by
        rw [harrives.target, hp]
        show some (requestTarget req.parts) = some p
        rw [requestTarget, hp, Option.getD_some]
      accept := hfield (by decide) (by decide) haccept
      coding := hfield (by decide) (by decide) hcoding
      body := (BoxBody.full.inj harrives.body).symm
      complete := harrives.complete
      length := fun cl hcl ↦ .inr (harrives.length cl hcl) }

/-- **What is served as a stream is served as a stream down the row.** If some gateway takes the SSE
path for a request, then so does any gateway that the request comes to when it has passed others,
with the same interface and the same body, as long as none of them has less room than the first. -/
theorem rerouted {profile' : Profile} {cfg' : ResolvedConfig}
    (hempty : D.deserializeStruct [] = none)
    (htarget : D.parsePathAndQuery (requestTarget req.parts).text = some (requestTarget req.parts))
    (hstream : handle profile D cfg req = some (.handleStream kind req.parts body))
    (hpasses : Relation.ReflTransGen (Passes D cfg.maxProbeBody) req req')
    (hroomy : Roomy cfg.maxProbeBody cfg') :
    handle profile' D cfg' req' = some (.handleStream kind req'.parts body) := by
  suffices h : requestTarget req'.parts = requestTarget req.parts ∧
      ∀ profile' cfg', Roomy cfg.maxProbeBody cfg' →
        handle profile' D cfg' req' = some (.handleStream kind req'.parts body) from
    h.2 profile' cfg' hroomy
  induction hpasses with
  | refl =>
    obtain ⟨-, -, -, hfailure, -⟩ := handle_stream_iff.1 hstream
    exact ⟨rfl, fun profile' cfg' hroomy ↦ (Kept.refl hfailure).handle_eq hempty hstream hroomy⟩
  | @tail req₁ req₂ _ hstep ih =>
    obtain ⟨hsame, hstream₁⟩ := ih
    have hkept : Kept req₁ req₂ := hstep.kept (hsame ▸ htarget) hstream₁
    refine ⟨?_, fun profile' cfg' hroomy ↦ ?_⟩
    · rw [requestTarget, hkept.target, ← requestTarget, hsame]
    · exact hkept.handle_eq hempty (hstream₁ profile' cfg' hroomy)
        ⟨Nat.le_refl _, hroomy.ne_max⟩

end

/-- The same request behind a gateway. -/
def passedRequest : Request Incoming where
  parts := { streamRequest.parts with
    headers := [(HeaderName.host, ⟨utf8 Authority.reference.text, by decide⟩),
      (HeaderName.contentLength, ⟨utf8 "15".toList, by decide⟩)] }
  body := ⟨[.data (streamBody.take 4), .data (streamBody.drop 4)], none⟩

theorem passes_streamRequest :
    Passes .reference ResolvedConfig.reference.maxProbeBody streamRequest passedRequest := by
  refine @Passes.intro _ _ _ _ .release .reference .reference (Sse.second 0) _ _
    ResolvedConfig.parse_reference ⟨Nat.le_refl _, by decide⟩ (by decide) (by decide) rfl rfl ?_
  refine ⟨rfl, rfl, fun n hn ↦ ?_, by decide, rfl, by decide⟩
  -- the library has set the length, and nothing else
  have hne : n ≠ HeaderName.contentLength := fun h ↦ hn (h ▸ by decide)
  show passedRequest.parts.headers.getAll n =
    HeaderMap.getAll [(HeaderName.host, ⟨utf8 Authority.reference.text, by decide⟩)] n
  simp [HeaderMap.getAll, passedRequest, List.filter_cons, hne.symm]

/-- Behind the first gateway it is served as a stream. -/
theorem rerouted_streamRequest :
    handle .release .reference .reference passedRequest =
      some (.handleStream .chatCompletions passedRequest.parts streamBody) :=
  @rerouted .release .reference .reference streamRequest passedRequest .chatCompletions streamBody
    .release .reference rfl rfl rfl (.single passes_streamRequest) ⟨Nat.le_refl _, by decide⟩

/-! ### Streams -/

/-- A stream passes a gateway: a run in which the upstream has answered, the items were those of its
decoded body, and the client has stayed to the end and been sent a stream. -/
structure Relay (D : Sse.Decoders) (g : Sse.Gateway) (up down : Response Incoming) where
  parts : Parts
  body : Bytes
  now : Instant
  first : Sse.State
  actions : List Sse.Action
  last : Sse.State
  head : Response BoxBody
  begun : Sse.handleStream g parts body now = some first
  run : Transition.run (Sse.step g) first actions = some last
  answered : .upstream (.ok up) ∈ actions
  taken : ∀ ce, parseContentEncoding up.headers = some ce →
    Sse.Streams (Sse.decoderStream D ce up.body) (Sse.items actions)
  finished : last.task = .finished
  stayed : last.connected = true
  reply : last.reply = some head
  channel : head.body = .channel
  delivered : Delivered head (last.received ++ last.queue).flatten down

/-- A response that can be relayed as it is, and is complete. -/
structure Plain (resp : Response Incoming) : Prop where
  success : resp.status.isSuccess = true
  coding : parseContentEncoding resp.headers = some .identity
  complete : resp.body.failure = none

section

variable {D : Sse.Decoders} {g : Sse.Gateway} {up mid down : Response Incoming}

/-- What a gateway sends is plain. -/
theorem Relay.plain (h : Relay D g up down) : Plain down := by
  have hfits := Sse.fitsStream_run h.begun h.run h.reply h.channel
  have hcoding : down.headers.getAll HeaderName.contentEncoding = [] :=
    (h.delivered.fields _ (by decide)).trans hfits.no_coding
  refine ⟨?_, ?_, h.delivered.complete⟩
  · rw [h.delivered.status]
    exact hfits.success
  · rw [parseContentEncoding, hcoding]

theorem Relay.read_eq (h : Relay D g up down) (hD : g.crates.SerdeJson)
    (hsuccess : up.status.isSuccess = true) {ce : Coding}
    (hce : parseContentEncoding up.headers = some ce) :
    read down.body.bytes = Sse.relayedReading g (Sse.decoderStream D ce up.body) := by
  rw [h.delivered.body]
  exact Sse.read_relayed D hD h.begun h.run h.stayed h.finished h.reply h.channel h.answered
    hsuccess hce (h.taken ce hce)

/-- A plain stream is read as it was. -/
theorem Plain.relayedReading_eq (h : Plain up) :
    Sse.relayedReading g (Sse.decoderStream D .identity up.body) = read up.body.bytes := by
  have hfailure : (Sse.bodyToIoStream up.body).failure = none := by
    rw [Sse.bodyToIoStream, h.complete, Option.map_none]
  rw [Sse.relayedReading]
  simp only [Sse.decoderStream, hfailure, Sse.output_bodyToIoStream]

/-- A stream passes some gateway. -/
def Relays (D : Sse.Decoders) (up down : Response Incoming) : Prop :=
  ∃ g : Sse.Gateway, g.crates.SerdeJson ∧ Nonempty (Relay D g up down)

/-- **The client at the end of a row of gateways reads what the upstream sent.** However many
gateways a stream passes behind the one that has it from the upstream, and whatever the pieces in
which it comes to them and the heartbeats that they put in, the client reads what it would read with
the one alone: the events of the decoded body, and the error event if the body breaks off. -/
theorem chained_whole (hD : g.crates.SerdeJson) (h : Relay D g up mid)
    (hsuccess : up.status.isSuccess = true) {ce : Coding}
    (hce : parseContentEncoding up.headers = some ce)
    (hrelays : Relation.ReflTransGen (Relays D) mid down) :
    Plain down ∧
      read down.body.bytes = Sse.relayedReading g (Sse.decoderStream D ce up.body) := by
  induction hrelays with
  | refl => exact ⟨h.plain, h.read_eq hD hsuccess hce⟩
  | tail _ hstep ih =>
    obtain ⟨hplain, hread⟩ := ih
    obtain ⟨g', hD', ⟨h'⟩⟩ := hstep
    refine ⟨h'.plain, ?_⟩
    rw [h'.read_eq hD' hplain.success hplain.coding, hplain.relayedReading_eq, hread]

end

/-- What a client has been sent by a gateway whose upstream was slow. -/
def heardResponse : Response Incoming where
  status := StatusCode.ok
  headers := Sse.keepaliveResponse.headers
  body := ⟨[.data (Sse.heartbeat ++ utf8 "data: a\r\n\r".toList ++ Sse.heartbeat ++
    utf8 "\n".toList)], none⟩

theorem relay_heardResponse :
    Nonempty (Relay .reference .reference Sse.spokenStream heardResponse) := by
  refine ⟨⟨streamRequest.parts, [], Sse.second 0, _, Sse.spokenRun, _, Sse.keepaliveResponse, rfl,
    rfl, by simp [Sse.spokenRun], fun ce hce ↦ ?_, rfl, rfl, rfl, rfl, ?_⟩⟩
  · obtain rfl : Coding.identity = ce := Option.some.inj hce
    exact ⟨[utf8 "data: a\r\n\r".toList, utf8 "\n".toList], by decide +kernel, by decide +kernel⟩
  · exact ⟨rfl, fun n hn ↦ rfl, by decide +kernel, rfl⟩

/-- What the next gateway makes of that, when it comes at once. -/
def passedResponse : Response Incoming :=
  { heardResponse with headers := (Sse.passthroughSseResponse heardResponse).headers }

theorem relays_passedResponse : Relays .reference heardResponse passedResponse := by
  refine ⟨.reference, Crates.serdeJson_reference, ⟨⟨streamRequest.parts, [], Sse.second 0, _,
    [.upstream (.ok heardResponse), .start, .item (.chunk heardResponse.body.bytes), .sent, .rearm,
      .item .done], _, Sse.passthroughSseResponse heardResponse, rfl, rfl,
    List.mem_cons_self, fun ce hce ↦ ?_, rfl, rfl, rfl, rfl, ?_⟩⟩⟩
  · obtain rfl : Coding.identity = ce := Option.some.inj hce
    exact ⟨[heardResponse.body.bytes], by decide +kernel, by decide +kernel⟩
  · exact ⟨rfl, fun n hn ↦ rfl, by decide +kernel, rfl⟩

/-- The client reads the event through both. -/
theorem chained_whole_passedResponse :
    Plain passedResponse ∧
      read passedResponse.body.bytes = ⟨[[utf8 "data: a".toList]], [], []⟩ := by
  obtain ⟨h⟩ := relay_heardResponse
  obtain ⟨hplain, hread⟩ := chained_whole Crates.serdeJson_reference h rfl rfl
    (.single relays_passedResponse)
  refine ⟨hplain, hread.trans ?_⟩
  decide +kernel

end KeepSse
