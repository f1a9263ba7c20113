import KeepSse.Handle
import KeepSse.Sse.Rearm

/-!
# What a request cannot do

A request cannot fill the memory: whatever is collected, decoded or kept of it stays within a limit
(`held_le`). And it cannot panic the gateway: on an accepted configuration every `expect` on its way
succeeds, in the dispatch, in the rewriting of the head, and in the task that relays the answer
(`never_panics`).

## What each result rests on

* `held_le` rests on the readers alone. Every buffer is filled by one that stops at its limit, for a
  body as it comes (`collectLimited_ok`) and for what is decoded of it (`decodeBytes_length_le`),
  and an exit carries no other body (`Probes.full?_length_le`). Nothing is assumed of the decoders,
  of the configuration or of the request.
* `never_panics` has a lemma for each of the three places. Dispatch comes to an exit, unless the
  limit of a decoding overflows (`exists_exit`). The request for the upstream can be built, because
  an accepted configuration has an authority to send it to (`exists_requests`). And a task that is
  running panics only where it re-arms its timer (`Sse.Step.ne_panicked`), which is in range as long
  as the clock is (`Sse.resets_of_clock`).

## What is left to assume

Two overflows depend on the configuration and on the clock, not on the request: the limit 2^64-1 in
a debug build, and a deadline beyond the range of an instant. They are excluded by hypothesis, the
second in the form in which tokio needs it, with room to round (`Instant.Resets`). Of the http crate
it is assumed that the path and query of a request which it has parsed are parsed again.
-/

namespace KeepSse

open Text Http

/-! ### Limits -/

/-- What decoding returns is within its limit. -/
theorem decodeBytes_length_le {profile : Profile} {D : Crates} {coding : Coding}
    {input out : Bytes} {maxOut : UInt64}
    (h : decodeBytes profile D coding input maxOut = some (.ok out)) :
    out.length ≤ maxOut.toNat := by
  by_cases hid : coding = .identity
  · subst hid
    simp only [decodeBytes] at h
    split_ifs at h with hlong
    · simp at h
    · obtain rfl := Except.ok.inj (Option.some.inj h)
      exact Nat.not_lt.1 hlong
  · rw [decodeBytes_eq_decodeAsync profile D hid, decodeAsync, Option.bind_eq_bind,
      Option.bind_eq_some_iff] at h
    obtain ⟨limit, -, h⟩ := h
    split at h
    · simp at h
    · split_ifs at h with hlong
      · simp at h
      · obtain rfl := Except.ok.inj (Option.some.inj h)
        exact Nat.not_lt.1 hlong

/-- What is collected is the data of the body, within the limit. -/
theorem collectLimited_ok {b : Incoming} {limit : ℕ} {collected : Bytes}
    (h : b.collectLimited limit = .ok collected) :
    collected = b.bytes ∧ collected.length ≤ limit := by
  rw [Incoming.collectLimited_eq] at h
  split_ifs at h with hlong
  split at h
  · obtain rfl := Except.ok.inj h
    exact ⟨rfl, Nat.not_lt.1 hlong⟩
  · cases h

/-- An error body is within its limit, whether it is decoded or not. -/
theorem Sse.errorBody_length_le {g : Sse.Gateway} {ce : Option Coding} {body : Incoming}
    {b : Bytes} (h : Sse.errorBody g ce body = some b) :
    b.length ≤ Sse.maxErrorBody.toNat := by
  unfold Sse.errorBody at h
  simp only at h
  split at h
  case h_1 | h_2 =>
    -- the body as it has been read
    obtain rfl := Option.some.inj h
    split
    · next c hc => exact (collectLimited_ok hc).2
    · exact Nat.zero_le _
  case h_3 =>
    obtain ⟨res, hres, rfl⟩ := Option.map_eq_some_iff.1 h
    cases res with
    | ok decoded => exact decodeBytes_length_le hres
    | error e =>
      simp only
      split
      · next c hc => exact (collectLimited_ok hc).2
      · exact Nat.zero_le _

section

variable {profile : Profile} {D : Crates} {cfg : ResolvedConfig} {req : Request Incoming}

/-- The body that an exit passes on complete. -/
def Exit.full? : Exit → Option Bytes
  | .proxyBuffered _ body => some body
  | .handleStream _ _ body => some body
  | _ => none

theorem Probes.full?_length_le {kind : EndpointKind} {exit : Exit} {body : Bytes}
    (h : Probes profile D cfg req kind (some exit)) (hbody : exit.full? = some body) :
    body.length ≤ cfg.maxProbeBody.toNat := by
  cases h with
  | tooLarge hlimit => cases hbody
  | unreadable hlimit hfailure => cases hbody
  | stream hlimit hfailure hasks =>
    obtain rfl := Option.some.inj hbody
    exact Nat.not_lt.1 (outgrows_iff.not.1 hlimit)
  | buffered hlimit hfailure hasks =>
    obtain rfl := Option.some.inj hbody
    exact Nat.not_lt.1 (outgrows_iff.not.1 hlimit)

/-- **No buffer outgrows its limit.** A body that is passed on complete is within the limit on
probing, and so is what it is decoded to; and the error body of any answer, in any coding, is within
the limit on error bodies. -/
theorem held_le (profile : Profile) (D : Crates) (cfg : ResolvedConfig) (req : Request Incoming) :
    (∀ exit body, handle profile D cfg req = some exit → exit.full? = some body →
      body.length ≤ cfg.maxProbeBody.toNat ∧
        ∀ b, Probed profile D cfg req b → b.length ≤ cfg.maxProbeBody.toNat) ∧
      ∀ kind ce body b, Sse.errorBody ⟨D, profile, cfg, kind⟩ ce body = some b →
        b.length ≤ 1024 * 1024 := by
  refine ⟨fun exit body hexit hbody ↦ ?_, fun kind ce body b h ↦ Sse.errorBody_length_le h⟩
  rcases handle_cases profile D cfg req with hproxy | ⟨kind, hprobes⟩
  · obtain rfl := Option.some.inj (hexit.symm.trans hproxy)
    cases hbody
  · rw [hexit] at hprobes
    refine ⟨hprobes.full?_length_le hbody, fun b hb ↦ ?_⟩
    unfold Probed at hb
    split at hb
    · -- a body that cannot be decoded is probed as it is
      subst hb
      have hsame : body = req.body.bytes := by
        cases hprobes with
        | tooLarge hlimit => cases hbody
        | unreadable hlimit hfailure => cases hbody
        | stream hlimit hfailure hasks => exact (Option.some.inj hbody).symm
        | buffered hlimit hfailure hasks => exact (Option.some.inj hbody).symm
      exact hsame ▸ hprobes.full?_length_le hbody
    · rcases hb with hb | ⟨rfl, -⟩
      · exact decodeBytes_length_le hb
      · exact Nat.zero_le _

end

/-! ### Panics -/

/-- While the clock is in range, a task does not panic. -/
theorem Sse.ne_panicked_run {g : Sse.Gateway} {parts : Parts} {body : Bytes} {now : Instant}
    {s₀ s : Sse.State} {as : List Sse.Action}
    (h₀ : Sse.handleStream g parts body now = some s₀) (hnow : now.Resets g.interval)
    (hclock : ∀ t, .clock t ∈ as → t.Resets g.interval)
    (hrun : Transition.run (Sse.step g) s₀ as = some s) : s.task ≠ .panicked := by
  revert hclock
  refine Transition.run_induction
    (P := fun as s ↦ (∀ t, .clock t ∈ as → t.Resets g.interval) → s.task ≠ .panicked)
    (fun _ ↦ Sse.handleStream_ne_panicked h₀) ?_ hrun
  intro as a s s' hs ih hstep hclock
  have hclock' : ∀ t, .clock t ∈ as → t.Resets g.interval :=
    fun t ht ↦ hclock t (List.mem_append_left _ ht)
  exact (Sse.Step.of_step hstep).ne_panicked (ih hclock')
    fun _ ↦ Sse.resets_of_clock h₀ hnow hclock' hs

section

variable {profile : Profile} {D : Crates} {config : Config} {cfg : ResolvedConfig}
  {req : Request Incoming}

/-- Dispatch comes to an exit, and keeps the head on the way. -/
theorem exists_exit (hlimit : profile = .release ∨ cfg.maxProbeBody.toNat ≠ 2 ^ 64 - 1) :
    ∃ exit, handle profile D cfg req = some exit ∧ exit.Keeps req := by
  cases hexit : handle profile D cfg req with
  | some exit => exact ⟨exit, rfl, keeps_of_handle hexit⟩
  | none =>
    rcases handle_cases profile D cfg req with hproxy | ⟨kind, hprobes⟩
    · rw [hexit] at hproxy
      cases hproxy
    · rw [hexit] at hprobes
      cases hprobes with
      | panicked _ _ _ hprobed => exact absurd (exists_probed hlimit) hprobed

/-- **No request panics the gateway.** On an accepted configuration, and unless a debug build is
configured with the largest limit of all, every request is dispatched, its upstream request is built
if there is one, and the task that serves it does not panic in any run in which the clock is in
range for the interval. -/
theorem never_panics (hcfg : ResolvedConfig.parse D config = .ok cfg)
    (htarget : D.parsePathAndQuery (requestTarget req.parts).text = some (requestTarget req.parts))
    (hlimit : profile = .release ∨ cfg.maxProbeBody.toNat ≠ 2 ^ 64 - 1) {now : Instant}
    (hnow : now.Resets cfg.heartbeatInterval) :
    ∃ exit, handle profile D cfg req = some exit ∧
      (exit.requests profile D cfg now).isSome = true ∧
      ∀ kind parts body, exit = .handleStream kind parts body →
        ∃ s₀, Sse.handleStream ⟨D, profile, cfg, kind⟩ parts body now = some s₀ ∧
          ∀ as s, (∀ t, .clock t ∈ as → t.Resets cfg.heartbeatInterval) →
            Transition.run (Sse.step ⟨D, profile, cfg, kind⟩) s₀ as = some s →
            s.task ≠ .panicked := by
  obtain ⟨exit, hexit, hkeeps⟩ : ∃ exit, handle profile D cfg req = some exit ∧ exit.Keeps req :=
    exists_exit hlimit
  refine ⟨exit, hexit, Option.isSome_iff_exists.2 (exists_requests hcfg htarget hkeeps now), ?_⟩
  rintro kind parts body rfl
  obtain rfl := hkeeps
  obtain ⟨s₀, h₀⟩ := exists_handleStream hcfg htarget kind body now
  exact ⟨s₀, h₀, fun as s hclock hrun ↦ Sse.ne_panicked_run h₀ hnow hclock hrun⟩

end

/-- A chat request on the default configuration. -/
theorem never_panics_chat :
    ∃ exit, handle .debug .reference .reference
        ⟨chatRequest ⟨utf8 "keep-alive".toList, by decide⟩, ⟨[.data streamBody], none⟩⟩ =
          some exit ∧
      (exit.requests .debug .reference .reference (Sse.second 0)).isSome = true := by
  obtain ⟨exit, hexit, hrequests, -⟩ := @never_panics .debug .reference .reference .reference
    ⟨chatRequest ⟨utf8 "keep-alive".toList, by decide⟩, ⟨[.data streamBody], none⟩⟩
    ResolvedConfig.parse_reference rfl (.inr (by decide)) (Sse.second 0) (by decide)
  exact ⟨exit, hexit, hrequests⟩

end KeepSse
