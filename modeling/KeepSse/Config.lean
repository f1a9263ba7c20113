import KeepSse.Crates

/-!
# Configuration

The command-line configuration and its validated form. Validation parses the upstream address and
refuses what is not a bare `http://` authority; the numbers are taken as they are.
-/

namespace KeepSse

open Text Http

/-- A socket address, as text. -/
structure SocketAddr where
  text : Str
  deriving DecidableEq

/-- The arguments of the program. -/
structure Config where
  listen : SocketAddr
  upstream : Str
  heartbeatInterval : UInt64
  connectTimeout : UInt64
  maxProbeBody : UInt64
  shutdownTimeout : UInt64

/-- The validated configuration. -/
structure ResolvedConfig where
  listen : SocketAddr
  upstream : Uri
  upstreamAuthority : Str
  heartbeatInterval : Duration
  connectTimeout : Duration
  maxProbeBody : UInt64
  shutdownTimeout : Duration

/-- Parse and validate a configuration; the error is the text to print. -/
def ResolvedConfig.parse (D : Crates) (cfg : Config) : Except Str ResolvedConfig :=
  match D.parseUri cfg.upstream with
  | .error e =>
    .error ("invalid --upstream `".toList ++ cfg.upstream ++ "`: ".toList ++ e)
  | .ok upstream =>
    if upstream.schemeStr ≠ some "http".toList then
      .error ("--upstream must use `http://` scheme, got `".toList ++
        upstream.schemeStr.getD "(none)".toList ++ "`".toList)
    else
      match upstream.authority? with
      | none => .error "--upstream missing authority (host[:port])".toList
      | some authority =>
        if upstream.path ≠ "/".toList ∧ upstream.path ≠ [] then
          .error ("--upstream must not carry a path; got `".toList ++ upstream.path ++
            "`".toList)
        else
          .ok {
            listen := cfg.listen
            upstream := upstream
            upstreamAuthority := authority.text
            heartbeatInterval := ⟨cfg.heartbeatInterval⟩
            connectTimeout := ⟨cfg.connectTimeout⟩
            maxProbeBody := cfg.maxProbeBody
            shutdownTimeout := ⟨cfg.shutdownTimeout⟩ }

/-- A configuration that validation accepts, with everything that was checked on the way: the
upstream address is a full `http` URI without a path, the authority kept beside it is its own, and
every number is kept as it was given. -/
theorem ResolvedConfig.parse_ok {D : Crates} {cfg : Config} {rc : ResolvedConfig}
    (h : ResolvedConfig.parse D cfg = .ok rc) :
    ∃ a p, D.parseUri cfg.upstream = .ok (.absolute "http".toList a p) ∧
      (p.path = "/".toList ∨ p.path = []) ∧
      rc = ⟨cfg.listen, .absolute "http".toList a p, a.text, ⟨cfg.heartbeatInterval⟩,
        ⟨cfg.connectTimeout⟩, cfg.maxProbeBody, ⟨cfg.shutdownTimeout⟩⟩ := by
  unfold ResolvedConfig.parse at h
  cases hu : D.parseUri cfg.upstream with
  | error e => simp [hu] at h
  | ok u =>
    by_cases hscheme : u.schemeStr = some "http".toList
    · cases u with
      | origin p => simp [Uri.schemeStr, Uri.intoParts] at hscheme
      | authority a => simp [Uri.schemeStr, Uri.intoParts] at hscheme
      | absolute s a p =>
        obtain rfl : s = "http".toList := Option.some.inj hscheme
        simp only [hu, hscheme, ne_eq, not_true_eq_false, if_false, Uri.authority?,
          Uri.intoParts] at h
        split at h
        · cases h
        · next hpath =>
          obtain rfl := Except.ok.inj h
          have hpath' : p.path = "/".toList ∨ p.path = [] := by
            simp only [Uri.path, Uri.pathAndQuery?, Uri.intoParts, not_and_or, not_not] at hpath
            exact hpath
          exact ⟨a, p, rfl, hpath', rfl⟩
    · simp only [hu, ne_eq, hscheme, not_false_eq_true, if_true, reduceCtorEq] at h

end KeepSse
