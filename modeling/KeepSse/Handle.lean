import KeepSse.Sse.Refinement
import KeepSse.UpstreamHead

/-!
# Dispatch

`handle` decides who serves a request: the transparent proxy, which streams the body through; the
SSE path; the buffered proxy; or nobody, with a response of the gateway's own. To decide it may have
to read the body, and then to decode a copy of it, and both are bounded by the same number. What the
two readings make of a body at and beyond the bound is what `Routed` is about. The decision is made
on a copy: whoever serves the request gets the body as it came.

## The law and the code

`Routed` is stated without the code's order of tests. Its conditions are on the request: the length
that it declares, the data that it has, whether its body breaks off, and what is probed of it
(`DeclaresMore`, `Outgrows`, `Probed`, `Asks`). `handle_routed` says that the code obeys it on every
configuration and every request.

## What it rests on

* One inversion of the code (`handle_cases`): a request goes to the transparent proxy, or it is of a
  streaming interface and does not declare too much, and then `Probes` lists what can happen. Each
  exit of the law is read off that list (`too_large_iff`, `unreadable_iff`, `stream_iff`,
  `buffered_iff`), since its conditions exclude one another.
* The bound on collecting is kept while the body comes in, frame by frame; the law speaks of the
  whole of it. They agree because a running total is largest at its end (`outgrows_iff`,
  `collectLimited_eq`).
* A response of the gateway's own is one of two (`own_of_handle`), each tells its status and its
  reason (`ownError_response413`, `ownError_response400`), and no upstream request goes with it.
  Every other exit sends the client's head with the body that it was given, once (`requests_eq`);
  and on an accepted configuration that request can be built (`exists_requests`).
-/

namespace KeepSse

open Text Http

/-! ### The code -/

/-- How `handle` ends: the call that serves the request, or a response of its own. -/
inductive Exit where
  | proxy (req : Request Incoming)
  | proxyBuffered (parts : Parts) (body : Bytes)
  | handleStream (kind : EndpointKind) (parts : Parts) (body : Bytes)
  | respond (resp : Response BoxBody)

/-- The answer to a body that is too large. -/
def response413 (D : Crates) : Response BoxBody :=
  jsonResponse D StatusCode.payloadTooLarge (Json.object [("error".toList, Json.object [
    ("message".toList, .string "request body exceeds max-probe-body limit".toList),
    ("type".toList, .string "invalid_request_error".toList)])])

/-- The answer to a body that could not be read. -/
def response400 (D : Crates) : Response BoxBody :=
  jsonResponse D StatusCode.badRequest (Json.object [("error".toList, Json.object [
    ("message".toList, .string "failed to read request body".toList),
    ("type".toList, .string "invalid_request_error".toList)])])

theorem ownError_response413 (D : Crates) :
    OwnError D 413 "request body exceeds max-probe-body limit".toList
      "invalid_request_error".toList (response413 D) :=
  ⟨rfl, rfl, rfl⟩

theorem ownError_response400 (D : Crates) :
    OwnError D 400 "failed to read request body".toList "invalid_request_error".toList
      (response400 D) :=
  ⟨rfl, rfl, rfl⟩

/-- The length that a request declares, if it is a number. -/
def contentLength (headers : HeaderMap) : Option ℕ := do
  let v ← headers.get HeaderName.contentLength
  let s ← v.toStr
  parseUsize s

/-- The bytes that are probed for the flag; `none` is a panic. -/
def probeBody (profile : Profile) (D : Crates) (cfg : ResolvedConfig) (headers : HeaderMap)
    (collected : Bytes) : Option Bytes :=
  match parseContentEncoding headers with
  | some ce =>
    (decodeBytes profile D ce collected cfg.maxProbeBody).map fun
      | .ok decoded => decoded
      | .error _ => []
  | none => some collected

/-- Dispatch a request; `none` is a panic. -/
def handle (profile : Profile) (D : Crates) (cfg : ResolvedConfig) (req : Request Incoming) :
    Option Exit :=
  match matchEndpoint req.parts.method req.parts.uri.path req.parts.uri.query with
  | some kind =>
    if (contentLength req.parts.headers).any fun cl ↦ cfg.maxProbeBody.toNat < cl then
      some (.proxy req)
    else
      match req.body.collectLimited cfg.maxProbeBody.toNat with
      | .error .lengthLimit => some (.respond (response413 D))
      | .error (.read _) => some (.respond (response400 D))
      | .ok collected =>
        if kind = .geminiStream then some (.handleStream kind req.parts collected)
        else if acceptsEventStream req.parts.headers then
          some (.handleStream kind req.parts collected)
        else do
          let probed ← probeBody profile D cfg req.parts.headers collected
          if probeStreamFlag D probed then some (.handleStream kind req.parts collected)
          else some (.proxyBuffered req.parts collected)
  | none => some (.proxy req)

/-- The requests that an exit sends upstream; `none` is a panic. -/
def Exit.requests (profile : Profile) (D : Crates) (cfg : ResolvedConfig) (now : Instant) :
    Exit → Option (List (Request BoxBody))
  | .proxy req => (KeepSse.proxy D cfg req).map fun r ↦ [r]
  | .proxyBuffered parts body => (KeepSse.proxyBuffered D cfg parts body).map fun r ↦ [r]
  | .handleStream kind parts body =>
    (Sse.handleStream ⟨D, profile, cfg, kind⟩ parts body now).map Sse.State.requests
  | .respond _ => some []

/-! ### The law -/

/-- At some point the data of a body is more than a limit. -/
def Outgrows (body : Incoming) (limit : ℕ) : Prop :=
  ∃ pre, pre <+: body.frames ∧ limit < (pre.flatMap BodyFrame.bytes).length

/-- A request declares more than the gateway is ready to probe. -/
def DeclaresMore (cfg : ResolvedConfig) (req : Request Incoming) : Prop :=
  ∃ cl, contentLength req.parts.headers = some cl ∧ cfg.maxProbeBody.toNat < cl

/-- The bytes that are probed for the flag: the body, where its coding cannot be decoded; else what
decoding it returns, and nothing where that fails. -/
def Probed (profile : Profile) (D : Crates) (cfg : ResolvedConfig) (req : Request Incoming)
    (b : Bytes) : Prop :=
  match parseContentEncoding req.parts.headers with
  | none => b = req.body.bytes
  | some ce =>
    decodeBytes profile D ce req.body.bytes cfg.maxProbeBody = some (.ok b) ∨
      b = [] ∧ ∃ e, decodeBytes profile D ce req.body.bytes cfg.maxProbeBody = some (.error e)

/-- A request asks for a stream, by its path, its headers or its body. -/
def Asks (profile : Profile) (D : Crates) (cfg : ResolvedConfig) (req : Request Incoming)
    (kind : EndpointKind) : Prop :=
  kind = .geminiStream ∨ acceptsEventStream req.parts.headers = true ∨
    ∃ b, Probed profile D cfg req b ∧ probeStreamFlag D b = true

/-- The exits of `handle` and when each is taken. The conditions of the last four are on requests
of a streaming interface that declare no more than is probed. -/
structure Routed (profile : Profile) (D : Crates) (cfg : ResolvedConfig) (req : Request Incoming) :
    Prop where
  /-- Other requests are streamed through. -/
  transparent : handle profile D cfg req = some (.proxy req) ↔
    matchEndpoint req.parts.method req.parts.uri.path req.parts.uri.query = none ∨
      DeclaresMore cfg req
  too_large : ∀ kind,
    matchEndpoint req.parts.method req.parts.uri.path req.parts.uri.query = some kind →
    ¬ DeclaresMore cfg req →
    (handle profile D cfg req = some (.respond (response413 D)) ↔
      Outgrows req.body cfg.maxProbeBody.toNat)
  unreadable : ∀ kind,
    matchEndpoint req.parts.method req.parts.uri.path req.parts.uri.query = some kind →
    ¬ DeclaresMore cfg req →
    (handle profile D cfg req = some (.respond (response400 D)) ↔
      ¬ Outgrows req.body cfg.maxProbeBody.toNat ∧ req.body.failure ≠ none)
  stream : ∀ kind,
    matchEndpoint req.parts.method req.parts.uri.path req.parts.uri.query = some kind →
    ¬ DeclaresMore cfg req → ¬ Outgrows req.body cfg.maxProbeBody.toNat →
    req.body.failure = none →
    (handle profile D cfg req = some (.handleStream kind req.parts req.body.bytes) ↔
      Asks profile D cfg req kind)
  /-- A debug build may panic in the decoder, and then nothing is probed. -/
  buffered : ∀ kind,
    matchEndpoint req.parts.method req.parts.uri.path req.parts.uri.query = some kind →
    ¬ DeclaresMore cfg req → ¬ Outgrows req.body cfg.maxProbeBody.toNat →
    req.body.failure = none → (∃ b, Probed profile D cfg req b) →
    (handle profile D cfg req = some (.proxyBuffered req.parts req.body.bytes) ↔
      ¬ Asks profile D cfg req kind)
  /-- The decoder returns in every release build, and in a debug build but for one limit. -/
  probed : profile = .release ∨ cfg.maxProbeBody.toNat ≠ 2 ^ 64 - 1 →
    ∃ b, Probed profile D cfg req b
  /-- The gateway has two answers of its own. -/
  own : ∀ resp, handle profile D cfg req = some (.respond resp) →
    resp = response413 D ∨ resp = response400 D
  /-- Each of them says what it is, in its status and its body. -/
  own_413 : OwnError D 413 "request body exceeds max-probe-body limit".toList
    "invalid_request_error".toList (response413 D)
  own_400 : OwnError D 400 "failed to read request body".toList
    "invalid_request_error".toList (response400 D)
  /-- A body is never too large if its declared length is right. -/
  honest : contentLength req.parts.headers = some req.body.bytes.length →
    ∀ resp, handle profile D cfg req = some (.respond resp) → resp.status.code ≠ 413
  /-- A body that is not encoded is probed as it is, up to the limit and at it. -/
  identity : parseContentEncoding req.parts.headers = some .identity →
    req.body.bytes.length ≤ cfg.maxProbeBody.toNat →
    ∀ b, Probed profile D cfg req b ↔ b = req.body.bytes
  /-- Nothing is sent upstream for a request that the gateway answers itself, and the others are
  sent once, each with its body as it came. -/
  faithful : ∀ now exit reqs, handle profile D cfg req = some exit →
    exit.requests profile D cfg now = some reqs →
    ((∃ resp, exit = .respond resp) ∧ reqs = []) ∨
      (exit = .proxy req ∧ ∃ r, reqs = [r] ∧ r.body = .incoming req.body) ∨
      (((∃ kind, exit = .handleStream kind req.parts req.body.bytes) ∨
          exit = .proxyBuffered req.parts req.body.bytes) ∧
        req.body.failure = none ∧ ∃ r, reqs = [r] ∧ r.body = .full req.body.bytes)
  /-- On an accepted configuration the upstream request is always built: the text of a target that
  was parsed is parsed again. -/
  sent : ∀ config now exit, ResolvedConfig.parse D config = .ok cfg →
    D.parsePathAndQuery (requestTarget req.parts).text = some (requestTarget req.parts) →
    handle profile D cfg req = some exit → ∃ reqs, exit.requests profile D cfg now = some reqs

/-! ### The three bounds -/

/-- The running total is largest at the end. -/
theorem outgrows_iff {body : Incoming} {limit : ℕ} :
    Outgrows body limit ↔ limit < body.bytes.length := by
  constructor
  · rintro ⟨pre, ⟨post, hpost⟩, hlt⟩
    rw [Incoming.bytes, ← hpost, List.flatMap_append, List.length_append]
    omega
  · exact fun hlt ↦ ⟨body.frames, List.prefix_rfl, hlt⟩

/-- The two readings of a bound on collecting agree. -/
theorem collectLimited_eq (body : Incoming) (limit : ℕ) :
    (Outgrows body limit ∧ body.collectLimited limit = .error .lengthLimit) ∨
      (¬ Outgrows body limit ∧ ∃ e, body.failure = some e ∧
        body.collectLimited limit = .error (.read e)) ∨
      (¬ Outgrows body limit ∧ body.failure = none ∧
        body.collectLimited limit = .ok body.bytes) := by
  rw [body.collectLimited_eq, outgrows_iff]
  by_cases hlt : limit < body.bytes.length
  · exact .inl ⟨hlt, if_pos hlt⟩
  · rw [if_neg hlt]
    cases hf : body.failure with
    | some e => exact .inr (.inl ⟨hlt, e, rfl, rfl⟩)
    | none => exact .inr (.inr ⟨hlt, rfl, rfl⟩)

section

variable {profile : Profile} {D : Crates} {cfg : ResolvedConfig} {req : Request Incoming}

theorem declaresMore_iff : DeclaresMore cfg req ↔
    ((contentLength req.parts.headers).any fun cl ↦ cfg.maxProbeBody.toNat < cl) = true := by
  simp [DeclaresMore, Option.any_eq_true]

theorem probed_iff {b : Bytes} : Probed profile D cfg req b ↔
    probeBody profile D cfg req.parts.headers req.body.bytes = some b := by
  unfold Probed probeBody
  cases parseContentEncoding req.parts.headers with
  | none => simp [eq_comm]
  | some ce =>
    simp only
    rcases decodeBytes profile D ce req.body.bytes cfg.maxProbeBody with - | e | decoded
    · simp
    · simp [eq_comm]
    · simp

theorem exists_probed (h : profile = .release ∨ cfg.maxProbeBody.toNat ≠ 2 ^ 64 - 1) :
    ∃ b, Probed profile D cfg req b := by
  simp only [probed_iff, ← Option.isSome_iff_exists, probeBody]
  cases parseContentEncoding req.parts.headers with
  | none => rfl
  | some ce =>
    rw [Option.isSome_map]
    exact decodeBytes_isSome D ce req.body.bytes h

/-! ### The exits -/

/-- What `handle` can do with a request of a streaming interface that declares no more than is
probed. -/
inductive Probes (profile : Profile) (D : Crates) (cfg : ResolvedConfig) (req : Request Incoming)
    (kind : EndpointKind) : Option Exit → Prop where
  | tooLarge (hlimit : Outgrows req.body cfg.maxProbeBody.toNat) :
    Probes profile D cfg req kind (some (.respond (response413 D)))
  | unreadable (hlimit : ¬ Outgrows req.body cfg.maxProbeBody.toNat)
    (hfailure : req.body.failure ≠ none) :
    Probes profile D cfg req kind (some (.respond (response400 D)))
  | stream (hlimit : ¬ Outgrows req.body cfg.maxProbeBody.toNat)
    (hfailure : req.body.failure = none) (hasks : Asks profile D cfg req kind) :
    Probes profile D cfg req kind (some (.handleStream kind req.parts req.body.bytes))
  | buffered (hlimit : ¬ Outgrows req.body cfg.maxProbeBody.toNat)
    (hfailure : req.body.failure = none) (hasks : ¬ Asks profile D cfg req kind) :
    Probes profile D cfg req kind (some (.proxyBuffered req.parts req.body.bytes))
  | panicked (hlimit : ¬ Outgrows req.body cfg.maxProbeBody.toNat)
    (hfailure : req.body.failure = none) (hasks : ¬ Asks profile D cfg req kind)
    (hprobed : ¬ ∃ b, Probed profile D cfg req b) : Probes profile D cfg req kind none

theorem handle_transparent
    (h : matchEndpoint req.parts.method req.parts.uri.path req.parts.uri.query = none ∨
      DeclaresMore cfg req) : handle profile D cfg req = some (.proxy req) := by
  unfold handle
  cases hkind : matchEndpoint req.parts.method req.parts.uri.path req.parts.uri.query with
  | none => rfl
  | some kind =>
    rcases h with h | h
    · rw [hkind] at h
      cases h
    · simp only
      rw [if_pos (declaresMore_iff.1 h)]

/-- **`handle` does nothing else.** -/
theorem handle_probes {kind : EndpointKind}
    (hkind : matchEndpoint req.parts.method req.parts.uri.path req.parts.uri.query = some kind)
    (hdeclared : ¬ DeclaresMore cfg req) :
    Probes profile D cfg req kind (handle profile D cfg req) := by
  unfold handle
  simp only [hkind]
  rw [if_neg (declaresMore_iff.not.1 hdeclared)]
  rcases collectLimited_eq req.body cfg.maxProbeBody.toNat with
    ⟨hlimit, hcollect⟩ | ⟨hlimit, e, hfailure, hcollect⟩ | ⟨hlimit, hfailure, hcollect⟩
  · rw [hcollect]
    exact .tooLarge hlimit
  · rw [hcollect]
    exact .unreadable hlimit (by simp [hfailure])
  · rw [hcollect]
    simp only
    split_ifs with hgemini haccepts
    · exact .stream hlimit hfailure (.inl hgemini)
    · exact .stream hlimit hfailure (.inr (.inl haccepts))
    · -- what is left to decide by is the flag
      have hasks : Asks profile D cfg req kind ↔
          ∃ b, Probed profile D cfg req b ∧ probeStreamFlag D b = true := by
        simp [Asks, hgemini, haccepts]
      cases hprobe : probeBody profile D cfg req.parts.headers req.body.bytes with
      | none =>
        have hnone : ∀ b, ¬ Probed profile D cfg req b := fun b hb ↦ by
          rw [probed_iff, hprobe] at hb
          cases hb
        exact .panicked hlimit hfailure (fun h ↦ by
          obtain ⟨b, hb, -⟩ := hasks.1 h
          exact hnone b hb) fun ⟨b, hb⟩ ↦ hnone b hb
      | some b =>
        have hb : Probed profile D cfg req b := probed_iff.2 hprobe
        have hiff : Asks profile D cfg req kind ↔ probeStreamFlag D b = true := by
          rw [hasks]
          constructor
          · rintro ⟨b', hb', hflag⟩
            rw [probed_iff, hprobe] at hb'
            rwa [Option.some.inj hb']
          · exact fun hflag ↦ ⟨b, hb, hflag⟩
        rw [Option.bind_eq_bind, Option.bind_some]
        split_ifs with hflag
        · exact .stream hlimit hfailure (hiff.2 hflag)
        · exact .buffered hlimit hfailure (hiff.not.2 hflag)

/-- The two responses of the gateway's own differ. -/
theorem response413_ne_response400 (D : Crates) : response413 D ≠ response400 D := by
  intro h
  have hstatus : StatusCode.payloadTooLarge = StatusCode.badRequest :=
    congrArg Response.status h
  exact absurd hstatus (by decide)

/-- Forwarding keeps the body. -/
theorem body_of_proxyReq {r r' : Request BoxBody} (h : proxyReq D cfg r = some r') :
    r'.body = r.body := by
  simp only [proxyReq, Option.bind_eq_bind, Option.bind_eq_some_iff, Option.some.injEq] at h
  obtain ⟨uri, -, host, -, rfl⟩ := h
  rfl

/-- An exit sends the body that it is given, once. -/
theorem requests_eq {exit : Exit} {now : Instant} {reqs : List (Request BoxBody)}
    (h : exit.requests profile D cfg now = some reqs) :
    match exit with
    | .proxy req => ∃ r, reqs = [r] ∧ r.body = .incoming req.body
    | .proxyBuffered _ body => ∃ r, reqs = [r] ∧ r.body = .full body
    | .handleStream _ _ body => ∃ r, reqs = [r] ∧ r.body = .full body
    | .respond _ => reqs = [] := by
  cases exit with
  | proxy req =>
    obtain ⟨r, hr, rfl⟩ := Option.map_eq_some_iff.1 h
    exact ⟨r, rfl, body_of_proxyReq hr⟩
  | proxyBuffered parts body =>
    obtain ⟨r, hr, rfl⟩ := Option.map_eq_some_iff.1 h
    exact ⟨r, rfl, body_of_proxyReq hr⟩
  | handleStream kind parts body =>
    obtain ⟨s₀, h₀, rfl⟩ := Option.map_eq_some_iff.1 h
    obtain ⟨r, hr, hs₀⟩ := Sse.requests_run h₀ (Transition.run_nil _ s₀)
    simp only [Sse.buildUpstreamRequest, Option.bind_eq_bind, Option.bind_eq_some_iff,
      Option.some.injEq] at hr
    obtain ⟨uri, -, host, -, rfl⟩ := hr
    exact ⟨_, hs₀, rfl⟩
  | respond resp => exact (Option.some.inj h).symm

/-- Where a request goes, whichever it is. -/
theorem handle_cases (profile : Profile) (D : Crates) (cfg : ResolvedConfig)
    (req : Request Incoming) :
    handle profile D cfg req = some (.proxy req) ∨
      ∃ kind, Probes profile D cfg req kind (handle profile D cfg req) := by
  cases hkind : matchEndpoint req.parts.method req.parts.uri.path req.parts.uri.query with
  | none => exact .inl (handle_transparent (.inl hkind))
  | some kind =>
    by_cases hdeclared : DeclaresMore cfg req
    · exact .inl (handle_transparent (.inr hdeclared))
    · exact .inr ⟨kind, handle_probes hkind hdeclared⟩

theorem handle_proxy_iff : handle profile D cfg req = some (.proxy req) ↔
    matchEndpoint req.parts.method req.parts.uri.path req.parts.uri.query = none ∨
      DeclaresMore cfg req := by
  refine ⟨fun h ↦ ?_, handle_transparent⟩
  by_contra hnot
  rw [not_or] at hnot
  obtain ⟨kind, hkind⟩ := Option.ne_none_iff_exists'.1 hnot.1
  have hprobes : Probes profile D cfg req kind (handle profile D cfg req) :=
    handle_probes hkind hnot.2
  rw [h] at hprobes
  cases hprobes

namespace Probes

variable {kind : EndpointKind} {exit : Option Exit}

theorem too_large_iff (h : Probes profile D cfg req kind exit) :
    exit = some (.respond (response413 D)) ↔ Outgrows req.body cfg.maxProbeBody.toNat := by
  have hne := response413_ne_response400 D
  cases h with
  | tooLarge hlimit => simp [hlimit]
  | unreadable hlimit hfailure => simp [hlimit, hne.symm]
  | stream hlimit hfailure hasks => simp [hlimit]
  | buffered hlimit hfailure hasks => simp [hlimit]
  | panicked hlimit hfailure hasks hprobed => simp [hlimit]

theorem unreadable_iff (h : Probes profile D cfg req kind exit) :
    exit = some (.respond (response400 D)) ↔
      ¬ Outgrows req.body cfg.maxProbeBody.toNat ∧ req.body.failure ≠ none := by
  have hne := response413_ne_response400 D
  cases h with
  | tooLarge hlimit => simp [hlimit, hne]
  | unreadable hlimit hfailure => simp [hlimit, hfailure]
  | stream hlimit hfailure hasks => simp [hfailure]
  | buffered hlimit hfailure hasks => simp [hfailure]
  | panicked hlimit hfailure hasks hprobed => simp [hfailure]

theorem stream_iff (h : Probes profile D cfg req kind exit)
    (hlimit : ¬ Outgrows req.body cfg.maxProbeBody.toNat) (hfailure : req.body.failure = none) :
    exit = some (.handleStream kind req.parts req.body.bytes) ↔ Asks profile D cfg req kind := by
  cases h with
  | tooLarge hlimit' => exact absurd hlimit' hlimit
  | unreadable hlimit' hfailure' => exact absurd hfailure hfailure'
  | stream hlimit' hfailure' hasks => simp [hasks]
  | buffered hlimit' hfailure' hasks => simp [hasks]
  | panicked hlimit' hfailure' hasks hprobed => simp [hasks]

theorem buffered_iff (h : Probes profile D cfg req kind exit)
    (hlimit : ¬ Outgrows req.body cfg.maxProbeBody.toNat) (hfailure : req.body.failure = none)
    (hprobed : ∃ b, Probed profile D cfg req b) :
    exit = some (.proxyBuffered req.parts req.body.bytes) ↔ ¬ Asks profile D cfg req kind := by
  cases h with
  | tooLarge hlimit' => exact absurd hlimit' hlimit
  | unreadable hlimit' hfailure' => exact absurd hfailure hfailure'
  | stream hlimit' hfailure' hasks => simp [hasks]
  | buffered hlimit' hfailure' hasks => simp [hasks]
  | panicked hlimit' hfailure' hasks hprobed' => exact absurd hprobed hprobed'

/-- An exit of a probed request sends the collected body, or nothing. -/
theorem faithful {exit : Exit} (h : Probes profile D cfg req kind (some exit)) {now : Instant}
    {reqs : List (Request BoxBody)} (hreqs : exit.requests profile D cfg now = some reqs) :
    ((∃ resp, exit = .respond resp) ∧ reqs = []) ∨
      (((∃ kind, exit = .handleStream kind req.parts req.body.bytes) ∨
          exit = .proxyBuffered req.parts req.body.bytes) ∧
        req.body.failure = none ∧ ∃ r, reqs = [r] ∧ r.body = .full req.body.bytes) := by
  have hsent := requests_eq hreqs
  cases h with
  | tooLarge hlimit => exact .inl ⟨⟨_, rfl⟩, hsent⟩
  | unreadable hlimit hfailure => exact .inl ⟨⟨_, rfl⟩, hsent⟩
  | stream hlimit hfailure hasks => exact .inr ⟨.inl ⟨_, rfl⟩, hfailure, hsent⟩
  | buffered hlimit hfailure hasks => exact .inr ⟨.inr rfl, hfailure, hsent⟩

end Probes

/-- A response of the gateway's own is one of two. -/
theorem own_of_handle {resp : Response BoxBody}
    (h : handle profile D cfg req = some (.respond resp)) :
    resp = response413 D ∨ resp = response400 D := by
  rcases handle_cases profile D cfg req with hproxy | ⟨kind, hprobes⟩
  · rw [h] at hproxy
    cases hproxy
  · rw [h] at hprobes
    cases hprobes with
    | tooLarge hlimit => exact .inl rfl
    | unreadable hlimit hfailure => exact .inr rfl

/-- A body whose declared length is right is streamed through if it is too large. -/
theorem handle_ne_response413 (h : contentLength req.parts.headers = some req.body.bytes.length) :
    handle profile D cfg req ≠ some (.respond (response413 D)) := by
  intro h413
  by_cases hlimit : Outgrows req.body cfg.maxProbeBody.toNat
  · rw [handle_transparent (.inr ⟨_, h, outgrows_iff.1 hlimit⟩)] at h413
    cases h413
  · rcases handle_cases profile D cfg req with hproxy | ⟨kind, hprobes⟩
    · rw [h413] at hproxy
      cases hproxy
    · exact hlimit (hprobes.too_large_iff.1 h413)

theorem status_ne_413 (h : contentLength req.parts.headers = some req.body.bytes.length)
    {resp : Response BoxBody} (hresp : handle profile D cfg req = some (.respond resp)) :
    resp.status.code ≠ 413 := by
  rcases own_of_handle hresp with rfl | rfl
  · exact absurd hresp (handle_ne_response413 h)
  · rw [(ownError_response400 D).status]
    decide

/-- The identity coding decodes a body within the limit to itself. -/
theorem probed_identity (hcoding : parseContentEncoding req.parts.headers = some .identity)
    (hlength : req.body.bytes.length ≤ cfg.maxProbeBody.toNat) (b : Bytes) :
    Probed profile D cfg req b ↔ b = req.body.bytes := by
  rw [probed_iff, probeBody, hcoding]
  simp only [decodeBytes, if_neg (Nat.not_lt.2 hlength), Option.map_some, Option.some.injEq]
  exact eq_comm

/-! ### What is sent -/

/-- The head of a request that is passed on is the client's. -/
def Exit.Keeps (req : Request Incoming) : Exit → Prop
  | .proxy req' => req' = req
  | .proxyBuffered parts _ => parts = req.parts
  | .handleStream _ parts _ => parts = req.parts
  | .respond _ => True

/-- Dispatch keeps the head. -/
theorem keeps_of_handle {exit : Exit} (h : handle profile D cfg req = some exit) :
    exit.Keeps req := by
  rcases handle_cases profile D cfg req with hproxy | ⟨kind, hprobes⟩
  · obtain rfl := Option.some.inj (h.symm.trans hproxy)
    rfl
  · rw [h] at hprobes
    cases hprobes with
    | tooLarge hlimit => trivial
    | unreadable hlimit hfailure => trivial
    | stream hlimit hfailure hasks => rfl
    | buffered hlimit hfailure hasks => rfl

variable {config : Config}

/-- The upstream request of an accepted configuration can be built. -/
theorem exists_handleStream (hcfg : ResolvedConfig.parse D config = .ok cfg)
    (htarget : D.parsePathAndQuery (requestTarget req.parts).text = some (requestTarget req.parts))
    (kind : EndpointKind) (body : Bytes) (now : Instant) :
    ∃ s₀, Sse.handleStream ⟨D, profile, cfg, kind⟩ req.parts body now = some s₀ := by
  obtain ⟨a, v, -, -, hreq⟩ := proxyReq_eq hcfg htarget
  simp only [Sse.handleStream, buildUpstreamRequest_eq, hreq]
  exact ⟨_, rfl⟩

/-- On an accepted configuration no exit fails to build its request. -/
theorem exists_requests (hcfg : ResolvedConfig.parse D config = .ok cfg)
    (htarget : D.parsePathAndQuery (requestTarget req.parts).text = some (requestTarget req.parts))
    {exit : Exit} (hkeeps : exit.Keeps req) (now : Instant) :
    ∃ reqs, exit.requests profile D cfg now = some reqs := by
  obtain ⟨a, v, -, -, hreq⟩ := proxyReq_eq hcfg htarget
  cases exit with
  | proxy req' =>
    obtain rfl := hkeeps
    simp only [Exit.requests, proxy, hreq]
    exact ⟨_, rfl⟩
  | proxyBuffered parts body =>
    obtain rfl := hkeeps
    simp only [Exit.requests, proxyBuffered, hreq]
    exact ⟨_, rfl⟩
  | handleStream kind parts body =>
    obtain rfl := hkeeps
    obtain ⟨s₀, h₀⟩ : ∃ s₀, Sse.handleStream ⟨D, profile, cfg, kind⟩ req.parts body now = some s₀ :=
      exists_handleStream hcfg htarget kind body now
    rw [Exit.requests, h₀]
    exact ⟨_, rfl⟩
  | respond resp => exact ⟨_, rfl⟩

/-- **Every request is routed as it should be.** -/
theorem handle_routed (profile : Profile) (D : Crates) (cfg : ResolvedConfig)
    (req : Request Incoming) : Routed profile D cfg req where
  transparent := handle_proxy_iff
  too_large _ hkind hdeclared := (handle_probes hkind hdeclared).too_large_iff
  unreadable _ hkind hdeclared := (handle_probes hkind hdeclared).unreadable_iff
  stream _ hkind hdeclared := (handle_probes hkind hdeclared).stream_iff
  buffered _ hkind hdeclared := (handle_probes hkind hdeclared).buffered_iff
  probed := exists_probed
  own _ := own_of_handle
  own_413 := ownError_response413 D
  own_400 := ownError_response400 D
  honest h _ := status_ne_413 h
  identity := probed_identity
  faithful now exit reqs h hreqs := by
    rcases handle_cases profile D cfg req with hproxy | ⟨kind, hprobes⟩
    · obtain rfl := Option.some.inj (h.symm.trans hproxy)
      exact .inr (.inl ⟨rfl, requests_eq hreqs⟩)
    · rw [h] at hprobes
      exact (hprobes.faithful hreqs).imp_right .inr
  sent _ now _ hcfg htarget h := exists_requests hcfg htarget (keeps_of_handle h) now

end

theorem keepAlive_valid : (utf8 "keep-alive".toList).all isValueByte = true := by
  decide

/-- A request for a stream. -/
def streamRequest : Request Incoming :=
  ⟨chatRequest ⟨utf8 "keep-alive".toList, keepAlive_valid⟩, ⟨[.data streamBody], none⟩⟩

/-- A body of exactly the limit is probed whole. -/
example (connection : HeaderValue) :
    handle .release .reference { ResolvedConfig.reference with maxProbeBody := 15 }
        ⟨chatRequest connection, ⟨[.data streamBody], none⟩⟩ =
      some (.handleStream .chatCompletions (chatRequest connection) streamBody) := by
  rfl

end KeepSse
