import KeepSse.Encoding
import KeepSse.Proxy

/-!
# The heads on the SSE path

The request that the SSE path sends upstream, and the response heads that it sends downstream: what
it decides by, and what it changes. The bodies are the business of `Sse.Task`.

There are two response heads of its own making. One is sent when the window is over and nothing is
known of the upstream yet (`keepaliveResponse`). The other is the upstream's, with what would not be
true of a decoded stream taken out (`passthroughSseResponse`). That both fit a body which is written
as it comes is proved in `Sse.Reply`, for every run.
-/

namespace KeepSse.Sse

open Text Http

/-- The request that the SSE path sends upstream, with the collected body. -/
def buildUpstreamRequest (D : Crates) (cfg : ResolvedConfig) (parts : Parts) (body : Bytes) :
    Option (Request BoxBody) := do
  let uri ← upstreamUri D cfg parts.uri
  let hostVal ← HeaderValue.fromStr cfg.upstreamAuthority
  let headers := parts.headers.remove HeaderName.host
  let headers := headers.insert HeaderName.host hostVal
  let headers := stripHopByHop headers
  let parts := { parts with headers := headers }
  let parts := { parts with uri := uri }
  some ⟨parts, .full body⟩

/-- Whether the media type of a response is `text/event-stream`, in any case. -/
def isEventStream (headers : HeaderMap) : Bool :=
  match (headers.get HeaderName.contentType).bind HeaderValue.toStr with
  | some v =>
    eqIgnoreAsciiCase (trim ((v.splitOn ';').head?.getD [])) "text/event-stream".toList
  | none => false

def xAccelBuffering : HeaderName := ⟨"x-accel-buffering".toList, by decide, by decide⟩

/-- The value that keeps a proxy from buffering. -/
def noBuffering : HeaderValue := ⟨utf8 "no".toList, by decide⟩

/-- The head of an upstream event stream that is passed on decoded. -/
def passthroughSseResponse (resp : Response Incoming) : Response BoxBody where
  status := resp.status
  headers := (((stripHopByHop resp.headers).remove HeaderName.contentLength).remove
    HeaderName.contentEncoding).insert xAccelBuffering noBuffering
  body := .channel

/-- The head that the gateway sends on its own while the upstream is silent. -/
def keepaliveResponse : Response BoxBody where
  status := StatusCode.ok
  headers := ((HeaderMap.insert [] HeaderName.contentType
      ⟨utf8 "text/event-stream; charset=utf-8".toList, by decide⟩).insert
    HeaderName.cacheControl ⟨utf8 "no-cache".toList, by decide⟩).insert
      xAccelBuffering noBuffering
  body := .channel

end KeepSse.Sse
