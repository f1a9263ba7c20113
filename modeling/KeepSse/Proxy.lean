import KeepSse.Config

/-!
# The transparent proxy

Forwarding a request to the upstream and a response to the client, unchanged but for the fields
that belong to a single connection. `stripHopByHop` deletes those, and which they are is partly up
to the sender: a `Connection` field lists further names. The filter is characterised by what it
does to the values of each name (`getAll_stripHopByHop`).

A `none` in this module is a panic: an `expect` on the request target or on the authority.
-/

namespace KeepSse

open Text Http

/-! ### Hop-by-hop fields -/

/-- The fields that belong to a connection, beside `Connection` itself. -/
def hopByHop : List HeaderName := [
  ⟨"keep-alive".toList, by decide, by decide⟩,
  ⟨"transfer-encoding".toList, by decide, by decide⟩,
  ⟨"te".toList, by decide, by decide⟩,
  ⟨"trailer".toList, by decide, by decide⟩,
  ⟨"upgrade".toList, by decide, by decide⟩,
  ⟨"proxy-authorization".toList, by decide, by decide⟩,
  ⟨"proxy-authenticate".toList, by decide, by decide⟩]

/-- The names that the `Connection` fields list. -/
def connectionList (headers : HeaderMap) : List HeaderName :=
  (((headers.getAll HeaderName.connection).filterMap HeaderValue.toStr).flatMap
    listElements).filterMap HeaderName.tryFrom

/-- Delete the hop-by-hop fields, and those that the `Connection` fields list. -/
def stripHopByHop (headers : HeaderMap) : HeaderMap :=
  -- the list is read before anything is deleted
  let listed := connectionList headers
  ((headers.remove HeaderName.connection).removeAll listed).removeAll hopByHop

/-- A field of a message is hop-by-hop: it is `Connection`, or listed there, or one of the fixed
ones. -/
def IsHopByHop (headers : HeaderMap) (n : HeaderName) : Prop :=
  n = HeaderName.connection ∨ n ∈ connectionList headers ∨ n ∈ hopByHop

instance (headers : HeaderMap) (n : HeaderName) : Decidable (IsHopByHop headers n) :=
  inferInstanceAs (Decidable (_ ∨ _ ∨ _))

/-- **The filter deletes the hop-by-hop fields and nothing else.** -/
theorem getAll_stripHopByHop (headers : HeaderMap) (n : HeaderName) :
    (stripHopByHop headers).getAll n =
      if IsHopByHop headers n then [] else headers.getAll n := by
  simp only [stripHopByHop, HeaderMap.getAll_removeAll, IsHopByHop]
  by_cases hfixed : n ∈ hopByHop
  · simp [hfixed]
  by_cases hlisted : n ∈ connectionList headers
  · simp [hlisted]
  rcases eq_or_ne n HeaderName.connection with rfl | hne
  · simp
  · simp [hfixed, hlisted, hne, HeaderMap.getAll_remove_of_ne headers hne]

/-- **The filter is one pass over the fields.** -/
theorem stripHopByHop_eq_filter (headers : HeaderMap) :
    stripHopByHop headers = headers.filter fun f ↦ ¬IsHopByHop headers f.1 := by
  simp only [stripHopByHop, HeaderMap.removeAll_eq_filter, HeaderMap.remove, List.filter_filter]
  refine List.filter_congr fun f _ ↦ ?_
  rw [← Bool.decide_and, ← Bool.decide_and, decide_eq_decide, IsHopByHop]
  tauto

/-- A name is listed if some `Connection` value that is visible ASCII has it as an element, in any
case. -/
theorem mem_connectionList_iff {headers : HeaderMap} {n : HeaderName} :
    n ∈ connectionList headers ↔
      ∃ v ∈ headers.getAll HeaderName.connection, ∃ s, v.toStr = some s ∧
        ∃ t ∈ s.splitOn ',', toAsciiLower (trim t) = n.text := by
  simp only [connectionList, List.mem_filterMap, List.mem_flatMap, listElements, List.mem_filter,
    List.mem_map, HeaderName.tryFrom_eq_some_iff]
  constructor
  · rintro ⟨_, ⟨s, ⟨v, hv, hs⟩, ⟨t, ht, rfl⟩, -⟩, hn⟩
    exact ⟨v, hv, s, hs, t, ht, hn⟩
  · rintro ⟨v, hv, s, hs, t, ht, hn⟩
    refine ⟨trim t, ⟨s, ⟨v, hv, hs⟩, ⟨t, ht, rfl⟩, decide_eq_true ?_⟩, hn⟩
    -- a name is not empty, so neither is the element that spells it
    intro hnil
    rw [hnil] at hn
    exact n.ne_nil hn.symm

/-! ### Requests -/

/-- The upstream target of a request: the upstream's scheme and authority, and the path and query
of the request. -/
def upstreamUri (D : Crates) (cfg : ResolvedConfig) (original : Uri) : Option Uri := do
  let pathAndQuery := (original.pathAndQuery?.map PathAndQuery.text).getD "/".toList
  let p ← D.parsePathAndQuery pathAndQuery
  Uri.fromParts { cfg.upstream.intoParts with pathAndQuery := some p }

/-- The request that the transparent proxy sends: `Host` and the target rewritten, hop-by-hop
fields deleted. -/
def proxyReq (D : Crates) (cfg : ResolvedConfig) (req : Request BoxBody) :
    Option (Request BoxBody) := do
  let uri ← upstreamUri D cfg req.parts.uri
  let hostVal ← HeaderValue.fromStr cfg.upstreamAuthority
  let headers := req.parts.headers.remove HeaderName.host
  let headers := headers.insert HeaderName.host hostVal
  let headers := stripHopByHop headers
  some { req with parts := { req.parts with headers := headers, uri := uri } }

/-- Forward a request with its body as it arrives. -/
def proxy (D : Crates) (cfg : ResolvedConfig) (req : Request Incoming) :
    Option (Request BoxBody) :=
  proxyReq D cfg ⟨req.parts, .incoming req.body⟩

/-- Forward a request whose body has been collected. -/
def proxyBuffered (D : Crates) (cfg : ResolvedConfig) (parts : Parts) (body : Bytes) :
    Option (Request BoxBody) :=
  proxyReq D cfg ⟨parts, .full body⟩

/-! ### Responses -/

def applicationJson : HeaderValue := ⟨utf8 "application/json".toList, by decide⟩

/-- A JSON response. -/
def jsonResponse (D : Crates) (status : StatusCode) (body : Json.Value) : Response BoxBody where
  status := status
  headers := [(HeaderName.contentType, applicationJson)]
  body := .full (utf8 (D.toString body))

/-- The answer to a request that could not be forwarded. -/
def badGateway (D : Crates) (reason : Str) : Response BoxBody :=
  jsonResponse D StatusCode.badGateway (Json.object [("error".toList, Json.object [
    ("message".toList, .string ("upstream request failed: ".toList ++ reason)),
    ("type".toList, .string "server_error".toList)])])

/-- A response of the gateway's own: the status, and a JSON object that tells the error. -/
structure OwnError (D : Crates) (code : ℕ) (message type : Str) (resp : Response BoxBody) :
    Prop where
  status : resp.status.code = code
  headers : resp.headers = [(HeaderName.contentType, applicationJson)]
  body : resp.body = .full (utf8 (D.toString (.object [("error".toList, .object [
    ("message".toList, .string message), ("type".toList, .string type)])])))

theorem ownError_badGateway (D : Crates) (reason : Str) :
    OwnError D 502 ("upstream request failed: ".toList ++ reason) "server_error".toList
      (badGateway D reason) :=
  ⟨rfl, rfl, rfl⟩

/-- The upstream response, passed on. -/
def passthroughResponse (upstreamResp : Response Incoming) : Response BoxBody where
  status := upstreamResp.status
  headers := stripHopByHop upstreamResp.headers
  body := .incoming upstreamResp.body

/-- A response is passed on: its status and its body are those of the upstream's response, and so
are the fields that are not hop-by-hop there. -/
structure PassedOn (upstreamResp : Response Incoming) (resp : Response BoxBody) : Prop where
  status : resp.status = upstreamResp.status
  headers : resp.headers = upstreamResp.headers.filter fun f ↦ ¬IsHopByHop upstreamResp.headers f.1
  body : resp.body = .incoming upstreamResp.body

theorem passedOn_passthroughResponse (upstreamResp : Response Incoming) :
    PassedOn upstreamResp (passthroughResponse upstreamResp) :=
  ⟨rfl, stripHopByHop_eq_filter upstreamResp.headers, rfl⟩

/-- The answer of the transparent proxy, given the upstream's. -/
def proxyAnswer (D : Crates) (upstream : Except Str (Response Incoming)) : Response BoxBody :=
  match upstream with
  | .ok upstreamResp => passthroughResponse upstreamResp
  | .error e => badGateway D e

end KeepSse
