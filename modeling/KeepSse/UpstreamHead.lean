import KeepSse.Reference
import KeepSse.Sse.Head

/-!
# The head of an upstream request

The transparent proxy and the SSE path each build the head of the upstream request, in two modules
that spell the same edits. They build the same head (`buildUpstreamRequest_eq`), and the head is
what a gateway owes its upstream (`HeadLaw`), with one exception: the hop-by-hop filter runs after
the `Host` field has been rewritten, and the client may list `Host` in `Connection`. The law holds
if and only if it does not (`upstreamHeadLaw_iff`).

## What it rests on

* On an accepted configuration the upstream is absolute, and its authority is a valid header value
  (`exists_fromStr_authority`). With the target parsed again by the http crate, which is assumed of
  it, the head can be written down (`proxyReq_eq`).
* The filter reads the `Connection` fields of the client, which the rewriting of `Host` has left
  alone (`isHopByHop_insert_host`). So what is deleted from the rewritten fields is what was
  hop-by-hop in the client's (`getAll_upstream_headers`), and this decides about `Host` like about
  any other name.
* `Host` is no name that is hop-by-hop by itself: it counts as such only where it is listed
  (`not_isHopByHop_host_iff`). This gives the condition its form.
-/

namespace KeepSse

open Text Http

/-- The path and query that a request asks for; a target without one asks for the root. -/
def requestTarget (client : Parts) : PathAndQuery :=
  client.uri.pathAndQuery?.getD PathAndQuery.slash

/-- What the head of an upstream request owes the request it is made from: the same method and
target, the configured authority, no field that was hop-by-hop, and the authority as the one
`Host`. -/
structure HeadLaw (cfg : ResolvedConfig) (client head : Parts) : Prop where
  method : head.method = client.method
  target : head.uri.pathAndQuery? = some (requestTarget client)
  authority : head.uri.authority?.map Authority.text = some cfg.upstreamAuthority
  no_hopByHop : ∀ n, n ≠ HeaderName.host → IsHopByHop client.headers n →
    head.headers.getAll n = []
  host : ∃ v, head.headers.getAll HeaderName.host = [v] ∧ v.bytes = utf8 cfg.upstreamAuthority

/-- Both paths build one head, whatever the body, and it obeys the law. -/
def UpstreamHeadLaw (D : Crates) (cfg : ResolvedConfig) (client : Parts) : Prop :=
  ∃ head, (∀ body, proxyReq D cfg ⟨client, body⟩ = some ⟨head, body⟩) ∧
    (∀ body, Sse.buildUpstreamRequest D cfg client body = some ⟨head, .full body⟩) ∧
    HeadLaw cfg client head

/-- **The two paths build the same request.** -/
theorem buildUpstreamRequest_eq (D : Crates) (cfg : ResolvedConfig) (client : Parts)
    (body : Bytes) :
    Sse.buildUpstreamRequest D cfg client body = proxyReq D cfg ⟨client, .full body⟩ := by
  simp only [Sse.buildUpstreamRequest, proxyReq]

/-! ### The head of an accepted configuration -/

/-- An authority is a valid header value. -/
theorem exists_fromStr_authority (a : Authority) :
    ∃ v, HeaderValue.fromStr a.text = some v ∧ v.bytes = utf8 a.text := by
  have hvisible : ∀ c ∈ a.text, 33 ≤ c.toNat ∧ c.toNat < 127 := by
    simpa [List.all_eq_true] using a.visible
  have hvalid : (utf8 a.text).all isValueByte = true := by
    rw [utf8_of_ascii fun c hc ↦ by have := hvisible c hc; omega, List.all_map, List.all_eq_true]
    intro c hc
    obtain ⟨hlo, hhi⟩ := hvisible c hc
    have hnat : (UInt8.ofNat c.toNat).toNat = c.toNat := by
      rw [UInt8.toNat_ofNat', Nat.mod_eq_of_lt (by omega)]
    have h32 : (32 : UInt8) ≤ UInt8.ofNat c.toNat := by
      rw [UInt8.le_iff_toNat_le, hnat]
      exact Nat.le_of_lt hlo
    have h127 : UInt8.ofNat c.toNat ≠ 127 := fun h ↦ by
      have := congrArg UInt8.toNat h
      rw [hnat] at this
      exact absurd this (Nat.ne_of_lt hhi)
    simp [isValueByte, h32, h127]
  exact ⟨⟨utf8 a.text, hvalid⟩, by rw [HeaderValue.fromStr, dif_pos hvalid], rfl⟩

/-- The head that both paths build. -/
theorem proxyReq_eq {D : Crates} {cfg : ResolvedConfig} {config : Config}
    (hcfg : ResolvedConfig.parse D config = .ok cfg) {client : Parts}
    (htarget : D.parsePathAndQuery (requestTarget client).text = some (requestTarget client)) :
    ∃ a v, a.text = cfg.upstreamAuthority ∧ v.bytes = utf8 cfg.upstreamAuthority ∧
      ∀ body, proxyReq D cfg ⟨client, body⟩ = some ⟨{ client with
        headers := stripHopByHop
          ((client.headers.remove HeaderName.host).insert HeaderName.host v)
        uri := .absolute "http".toList a (requestTarget client) }, body⟩ := by
  obtain ⟨a, p, -, -, rfl⟩ := ResolvedConfig.parse_ok hcfg
  obtain ⟨v, hv, hbytes⟩ := exists_fromStr_authority a
  refine ⟨a, v, rfl, hbytes, fun body ↦ ?_⟩
  have huri : upstreamUri D ⟨config.listen, .absolute "http".toList a p, a.text,
      ⟨config.heartbeatInterval⟩, ⟨config.connectTimeout⟩, config.maxProbeBody,
      ⟨config.shutdownTimeout⟩⟩ client.uri =
        some (.absolute "http".toList a (requestTarget client)) := by
    have htext : (client.uri.pathAndQuery?.map PathAndQuery.text).getD "/".toList =
        (requestTarget client).text := by
      unfold requestTarget
      cases client.uri.pathAndQuery? with
      | none => rfl
      | some p => rfl
    rw [upstreamUri, htext, htarget]
    rfl
  rw [proxyReq, huri, hv]
  rfl

/-- The names that a client lists in `Connection` are not affected by the rewriting of `Host`. -/
theorem isHopByHop_insert_host (headers : HeaderMap) (v : HeaderValue) (n : HeaderName) :
    IsHopByHop ((headers.remove HeaderName.host).insert HeaderName.host v) n ↔
      IsHopByHop headers n := by
  have hne : HeaderName.connection ≠ HeaderName.host := by decide
  have hlist : connectionList ((headers.remove HeaderName.host).insert HeaderName.host v) =
      connectionList headers := by
    rw [connectionList, HeaderMap.getAll_insert_of_ne _ _ hne,
      HeaderMap.getAll_remove_of_ne _ hne, connectionList]
  rw [IsHopByHop, IsHopByHop, hlist]

/-- `Host` is hop-by-hop only where a client lists it in `Connection`. -/
theorem not_isHopByHop_host_iff (headers : HeaderMap) :
    ¬ IsHopByHop headers HeaderName.host ↔
      ∀ v ∈ headers.getAll HeaderName.connection, ∀ s, v.toStr = some s →
        ∀ t ∈ s.splitOn ',', toAsciiLower (trim t) ≠ "host".toList := by
  have hhost : HeaderName.host ≠ HeaderName.connection := by decide
  have hfixed : HeaderName.host ∉ hopByHop := by decide
  simp only [IsHopByHop, hhost, hfixed, mem_connectionList_iff, false_or, or_false, not_exists,
    not_and]
  rfl

section

variable {D : Crates} {cfg : ResolvedConfig} {config : Config} {client : Parts}

/-- The filter deletes from the rewritten fields what was hop-by-hop in the client's. -/
theorem getAll_upstream_headers (headers : HeaderMap) (v : HeaderValue) (n : HeaderName) :
    (stripHopByHop ((headers.remove HeaderName.host).insert HeaderName.host v)).getAll n =
      if IsHopByHop headers n then []
      else ((headers.remove HeaderName.host).insert HeaderName.host v).getAll n := by
  simp only [getAll_stripHopByHop, isHopByHop_insert_host]

/-- A `Host` that counts as hop-by-hop does not survive. -/
theorem not_upstreamHeadLaw_of_isHopByHop (hcfg : ResolvedConfig.parse D config = .ok cfg)
    (htarget : D.parsePathAndQuery (requestTarget client).text = some (requestTarget client))
    (hhost : IsHopByHop client.headers HeaderName.host) : ¬ UpstreamHeadLaw D cfg client := by
  obtain ⟨a, v, -, -, hreq⟩ := proxyReq_eq hcfg htarget
  rintro ⟨head, hproxy, -, hlaw⟩
  have hhead := (hreq .channel).symm.trans (hproxy .channel)
  obtain rfl := congrArg Request.parts (Option.some.inj hhead)
  obtain ⟨w, hw, -⟩ := hlaw.host
  -- the filter has deleted the field that the law asks for
  simp only [getAll_upstream_headers, if_pos hhost, List.nil_eq, reduceCtorEq] at hw

/-- **The law holds exactly if the client does not list `Host` in `Connection`.** -/
theorem upstreamHeadLaw_iff (hcfg : ResolvedConfig.parse D config = .ok cfg)
    (htarget : D.parsePathAndQuery (requestTarget client).text = some (requestTarget client)) :
    UpstreamHeadLaw D cfg client ↔
      ∀ v ∈ client.headers.getAll HeaderName.connection, ∀ s, v.toStr = some s →
        ∀ t ∈ s.splitOn ',', toAsciiLower (trim t) ≠ "host".toList := by
  rw [← not_isHopByHop_host_iff]
  constructor
  · intro hlaw hhost
    exact not_upstreamHeadLaw_of_isHopByHop hcfg htarget hhost hlaw
  · intro hhost
    obtain ⟨a, v, ha, hv, hreq⟩ := proxyReq_eq hcfg htarget
    refine ⟨_, hreq, fun body ↦ by rw [buildUpstreamRequest_eq, hreq], ?_⟩
    exact {
      method := rfl
      target := rfl
      authority := congrArg some ha
      no_hopByHop := fun n _ hn ↦ by rw [getAll_upstream_headers, if_pos hn]
      host := ⟨v, by
        rw [getAll_upstream_headers, if_neg hhost, HeaderMap.getAll_insert_self], hv⟩ }

end

/-! ### Two chat requests -/

/-- A client that keeps its connection alive is forwarded as it should be. -/
theorem upstreamHeadLaw_keepAlive :
    UpstreamHeadLaw .reference .reference
      (chatRequest ⟨utf8 "keep-alive".toList, by decide⟩) :=
  (upstreamHeadLaw_iff ResolvedConfig.parse_reference rfl).2
    ((not_isHopByHop_host_iff _).1 (by decide))

/-- A client that lists `Host` in `Connection` is forwarded without a `Host`. -/
theorem upstreamHeadLaw_listed_host :
    (proxyReq .reference .reference
        ⟨chatRequest ⟨utf8 "close, Host".toList, by decide⟩, .full []⟩).map
          (fun req ↦ req.parts.headers.getAll HeaderName.host) = some [] ∧
      ¬ UpstreamHeadLaw .reference .reference
        (chatRequest ⟨utf8 "close, Host".toList, by decide⟩) :=
  ⟨by decide, not_upstreamHeadLaw_of_isHopByHop ResolvedConfig.parse_reference rfl (by decide)⟩

end KeepSse
