import KeepSse.Handle
import KeepSse.Sse.Reading

/-!
# From the upstream's failure to the client's error

An upstream that fails when the client has been kept waiting cannot be answered for with a status
any more: the head has been sent. The failure becomes an event instead. The whole way of it is from
the frames of an error body over the limit, the decoder of its coding and the choice between the
body's own value and a template, to what a client makes of the bytes that it receives between the
heartbeats (`explained`).

## What it rests on

* What the event is made from is described without the code that collects and decodes it
  (`ErrorText`): the decoded body where there is one, the body as it came where there is none, and
  nothing where it cannot be read. That the code comes to this has a side for the collecting
  (`collected_eq`) and one for the decoding (`decodeBytes_error_body`), and they meet in
  `errorText_of_errorBody`. The limit is the same for both, but a body is refused by the first and
  taken as it came by the second.
* That the event is received, once and behind heartbeats only, is a matter of the course of a
  failure (`course_of_failing`): its words are heartbeats and then the one event.
* That the event says what it was made from is a matter of its encoding (`build_carries`), for which
  serde_json has to print a value on one line; and a body that is an error already is carried by its
  own value (`payload_of_upstreamPayload`).

A body that could not be read is decoded all the same, as an empty one. So for that case it is
assumed that a decoder makes nothing of no input; nothing else is assumed of a decoder.
-/

namespace KeepSse.Sse

open Text Http EventStream ErrorEvent

/-! ### The error body -/

/-- An error body that can be read: it comes to its end, within the limit. -/
def Readable (body : Incoming) : Prop :=
  body.failure = none ∧ body.bytes.length ≤ maxErrorBody.toNat

/-- An error body that can be decoded, within the same limit. -/
def Decodable (D : Crates) (ce : Coding) (b : Bytes) : Prop :=
  (ce.decoder D b).failure = none ∧ (ce.decoder D b).output.length ≤ maxErrorBody.toNat

/-- What an event can say of an error body: the decoded body; or the body as it has come, where it
cannot be decoded; or nothing, where it cannot be read. -/
structure ErrorText (D : Crates) (resp : Response Incoming) (b : Bytes) : Prop where
  decoded : ∀ ce, Readable resp.body → parseContentEncoding resp.headers = some ce →
    Decodable D ce resp.body.bytes → b = (ce.decoder D resp.body.bytes).output
  raw : Readable resp.body → (∀ ce, parseContentEncoding resp.headers = some ce →
    ¬Decodable D ce resp.body.bytes) → b = resp.body.bytes
  /-- Provided that a decoder makes nothing of nothing. -/
  missing : ¬Readable resp.body → (∀ ce : Coding, (ce.decoder D []).output = []) → b = []

/-- The end of `errorBody`: what it makes of what has been collected. -/
def decodedOrRaw (g : Gateway) (ce : Option Coding) (collected : Bytes) : Option Bytes :=
  match ce with
  | none => some collected
  | some .identity => some collected
  | some ce =>
    (decodeBytes g.profile g.crates ce collected maxErrorBody).map fun
      | .ok decoded => decoded
      | .error _ => collected

section

variable {g : Gateway} {b collected : Bytes}

/-- What is collected of an error body. -/
theorem collected_eq (body : Incoming) :
    (Readable body ∧ body.collectLimited maxErrorBody.toNat = .ok body.bytes) ∨
      (¬Readable body ∧ ∃ e, body.collectLimited maxErrorBody.toNat = .error e) := by
  rw [Readable]
  rcases collectLimited_eq body maxErrorBody.toNat with
    ⟨hlimit, hcollect⟩ | ⟨-, e, hfailure, hcollect⟩ | ⟨hlimit, hfailure, hcollect⟩
  · exact .inr ⟨fun h ↦ Nat.not_lt.2 h.2 (outgrows_iff.1 hlimit), _, hcollect⟩
  · exact .inr ⟨by simp [hfailure], _, hcollect⟩
  · exact .inl ⟨⟨hfailure, Nat.not_lt.1 (outgrows_iff.not.1 hlimit)⟩, hcollect⟩

/-- What is made of what has been collected: the decoded bytes, if there are any. -/
theorem decodeBytes_error_body (profile : Profile) (D : Crates) (ce : Coding) (collected : Bytes) :
    (Decodable D ce collected ∧ decodeBytes profile D ce collected maxErrorBody =
      some (.ok (ce.decoder D collected).output)) ∨
      (¬Decodable D ce collected ∧
        ∃ e, decodeBytes profile D ce collected maxErrorBody = some (.error e)) := by
  have hexact : ExactWithin (ce.decoder D collected) maxErrorBody.toNat
      (decodeBytes profile D ce collected maxErrorBody) :=
    (decodeBytes_exactWithin_iff ..).2 (.inr (.inl (by decide)))
  by_cases hdec : Decodable D ce collected
  · exact .inl ⟨hdec, (hexact.ok _).2 ⟨hdec.1, hdec.2, rfl⟩⟩
  · refine .inr ⟨hdec, ?_⟩
    have hsome : (decodeBytes profile D ce collected maxErrorBody).isSome = true :=
      decodeBytes_isSome D ce collected (.inr (by decide))
    obtain ⟨res, hres⟩ := Option.isSome_iff_exists.1 hsome
    cases res with
    | error e => exact ⟨e, hres⟩
    | ok out =>
      obtain ⟨hfailure, hlength, -⟩ := (hexact.ok out).1 hres
      exact absurd ⟨hfailure, hlength⟩ hdec

/-- An error body is what has been collected, or what that is decoded to. -/
theorem errorBody_eq (g : Gateway) (coding : Option Coding) {body : Incoming}
    (hcollect : body.collectLimited maxErrorBody.toNat = .ok collected ∨
      collected = [] ∧ ∃ e, body.collectLimited maxErrorBody.toNat = .error e) :
    errorBody g coding body = decodedOrRaw g coding collected := by
  rcases hcollect with hok | ⟨rfl, e, herror⟩
  · simp only [errorBody, hok]
    rfl
  · simp only [errorBody, herror]
    rfl

/-- Either way it is right: it is decoded where that is possible, and only there. -/
theorem decodedOrRaw_cases {coding : Option Coding}
    (h : decodedOrRaw g coding collected = some b) :
    (∃ ce, coding = some ce ∧ Decodable g.crates ce collected ∧
        b = (ce.decoder g.crates collected).output) ∨
      (∀ ce, coding = some ce → ¬Decodable g.crates ce collected) ∧ b = collected := by
  unfold decodedOrRaw at h
  split at h
  case h_1 => exact .inr ⟨fun _ hce ↦ (nomatch hce), (Option.some.inj h).symm⟩
  case h_2 =>
    obtain rfl := Option.some.inj h
    by_cases hdec : Decodable g.crates .identity collected
    · exact .inl ⟨.identity, rfl, hdec, (ByteReader.output_ofBytes _).symm⟩
    · exact .inr ⟨fun ce hce ↦ Option.some.inj hce ▸ hdec, rfl⟩
  case h_3 ce _ =>
    rcases decodeBytes_error_body g.profile g.crates ce collected with
      ⟨hdec, hres⟩ | ⟨hdec, e, hres⟩
    · rw [hres] at h
      exact .inl ⟨ce, rfl, hdec, (Option.some.inj h).symm⟩
    · rw [hres] at h
      exact .inr ⟨fun ce' hce' ↦ Option.some.inj hce' ▸ hdec, (Option.some.inj h).symm⟩

/-- **What an event is made from says what can be said.** -/
theorem errorText_of_errorBody {resp : Response Incoming}
    (h : errorBody g (parseContentEncoding resp.headers) resp.body = some b) :
    ErrorText g.crates resp b := by
  rcases collected_eq resp.body with ⟨hread, hcollect⟩ | ⟨hread, hcollect⟩
  · rw [errorBody_eq g _ (.inl hcollect)] at h
    rcases decodedOrRaw_cases h with ⟨ce, hce, hdec, rfl⟩ | ⟨hdec, rfl⟩
    · refine ⟨fun ce' _ hce' _ ↦ ?_, fun _ hraw ↦ absurd hdec (hraw ce hce),
        fun hnot ↦ absurd hread hnot⟩
      rw [Option.some.inj (hce'.symm.trans hce)]
    · exact ⟨fun ce' _ hce' hdec' ↦ absurd hdec' (hdec ce' hce'), fun _ _ ↦ rfl,
        fun hnot ↦ absurd hread hnot⟩
  · rw [errorBody_eq g _ (.inr ⟨rfl, hcollect⟩)] at h
    refine ⟨fun _ hread' ↦ absurd hread' hread, fun hread' ↦ absurd hread' hread,
      fun _ hnothing ↦ ?_⟩
    rcases decodedOrRaw_cases h with ⟨ce, -, -, rfl⟩ | ⟨-, rfl⟩
    · exact hnothing ce
    · rfl

end

/-! ### The client's error -/

section

variable {g : Gateway} {parts : Parts} {body : Bytes} {now : Instant} {s₀ s s₁ : State}
  {as pre post : List Action} {result : Except Str (Response Incoming)}

/-- After a failure has been reported, the client has the payload that was made of it. -/
theorem carries_failing (hD : g.crates.SerdeJson) (h₀ : handleStream g parts body now = some s₀)
    (hrun : Transition.run (step g) s₀ as = some s) (hconn : s.connected = true)
    (htask : s.task = .finished) (has : as = pre ++ .upstream result :: post)
    (hpre : Transition.run (step g) s₀ pre = some s₁) (hwait : s₁.task = .looping .waiting)
    (hfail : Failing result) :
    ∃ status body reason, Rejects g result status body reason ∧
      Carries g.kind (s.received ++ s.queue).flatten
        (payload g.crates g.kind (status.getD StatusCode.badGateway) body reason) := by
  have hrefines := refines_run h₀ hrun
  have hword := hrefines.word hconn
  have hfits := hrefines.fits
  rw [htask] at hword hfits
  have hreports : (Course.of g as).Reports g result := by
    rw [has]
    exact course_of_failing h₀ hpre hwait hfail
  cases hcourse : Course.of g as with
  | rejected status body reason =>
    rw [hcourse] at hword hreports
    obtain ⟨w₀, hw₀, hw⟩ := (word_append_nil _ _).1 hword
    have hread := read_error_word hD hw₀ (.inl ⟨rfl, rfl, rfl⟩) status body reason
    rw [List.append_nil, ErrorEvent.read_build hD] at hread
    obtain ⟨e, done, text, hbuild, hevent⟩ := build_carries hD g.kind status body reason
    rw [ErrorEvent.read_build hD] at hbuild
    refine ⟨status, body, reason, hreports, e, done, text, ?_, hevent⟩
    rw [hw, hread, ← hbuild]
    rfl
  | collecting status ce body =>
    rw [hcourse] at hfits
    exact (hfits hconn).elim
  | _ =>
    rw [hcourse] at hreports
    exact hreports.elim

/-- **The client is told why.** When the upstream fails after the window, a client that stays reads
one error of its interface and nothing else, whatever the heartbeats before it: for a request that
fails, the reason; for a success in a coding that is not known, that it is not; for any other
answer, the status with what can be said of its body, in whatever coding it came. That is the body's
own value if it is an error of the interface already. -/
theorem explained (hD : g.crates.SerdeJson) (h₀ : handleStream g parts body now = some s₀)
    (hrun : Transition.run (step g) s₀ as = some s) (hconn : s.connected = true)
    (htask : s.task = .finished) (has : as = pre ++ .upstream result :: post)
    (hpre : Transition.run (step g) s₀ pre = some s₁) (hwait : s₁.task = .looping .waiting) :
    (∀ e, result = .error e → Carries g.kind (s.received ++ s.queue).flatten
      (template g.kind StatusCode.badGateway ("upstream request failed: ".toList ++ e))) ∧
    (∀ resp, result = .ok resp → resp.status.isSuccess = true →
      parseContentEncoding resp.headers = none → Carries g.kind (s.received ++ s.queue).flatten
        (template g.kind StatusCode.badGateway
          "upstream request failed: unsupported upstream content-encoding".toList)) ∧
    (∀ resp, result = .ok resp → resp.status.isSuccess = false →
      ∃ b, ErrorText g.crates resp b ∧ Carries g.kind (s.received ++ s.queue).flatten
        (payload g.crates g.kind resp.status (some b) none)) := by
  have hcarries := carries_failing hD h₀ hrun hconn htask has hpre hwait
  refine ⟨?_, ?_, ?_⟩
  · rintro e rfl
    obtain ⟨status, body, reason, ⟨rfl, rfl, rfl⟩, hcarries⟩ := hcarries trivial
    exact hcarries
  · rintro resp rfl hsuccess hce
    obtain ⟨status, body, reason, hrejects, hcarries⟩ := hcarries fun _ ↦ hce
    rw [Rejects, if_pos hsuccess] at hrejects
    obtain ⟨rfl, rfl, rfl⟩ := hrejects
    exact hcarries
  · rintro resp rfl hstatus
    have hnot : ¬resp.status.isSuccess = true := by simp [hstatus]
    obtain ⟨status, body, reason, hrejects, hcarries⟩ := hcarries fun h ↦ absurd h hnot
    rw [Rejects, if_neg hnot] at hrejects
    obtain ⟨rfl, rfl, hsome, hbody⟩ := hrejects
    obtain ⟨b, rfl⟩ := Option.isSome_iff_exists.1 hsome
    exact ⟨b, errorText_of_errorBody hbody.symm, hcarries⟩

end

/-- An upstream that is asked too often, and says so in two frames. -/
def slowDown : Response Incoming where
  status := StatusCode.tooManyRequests
  headers := [(HeaderName.contentType, applicationJson)]
  body := ⟨[.data (utf8 "\x7b\x22error\x22:".toList),
    .data (utf8 "\x7b\x22message\x22:\x22slow down\x22\x7d\x7d".toList)], none⟩

/-- It answers after a heartbeat. -/
def slowDownRun : List Action := [
  .clock (second 60), .timer, .start, .clock (second 120), .timer, .sent, .rearm,
  .upstream (.ok slowDown), .collected, .sent]

/-- The client has the upstream's own error. -/
theorem explained_slowDown :
    ∃ s₀ s, handleStream .reference (chatRequest ⟨utf8 "keep-alive".toList, keepAlive_valid⟩) []
        (second 0) = some s₀ ∧
      Transition.run (step .reference) s₀ slowDownRun = some s ∧
      Carries .chatCompletions (s.received ++ s.queue).flatten
        (Json.object [("error".toList, Json.object [
          ("message".toList, .string "slow down".toList)])]) := by
  obtain ⟨s₀, s, s₁, h₀, hrun, hconn, htask, hpre, hwait⟩ :
      ∃ s₀ s s₁, handleStream .reference
          (chatRequest ⟨utf8 "keep-alive".toList, keepAlive_valid⟩) [] (second 0) = some s₀ ∧
        Transition.run (step .reference) s₀ slowDownRun = some s ∧ s.connected = true ∧
        s.task = .finished ∧ Transition.run (step .reference) s₀ (slowDownRun.take 7) = some s₁ ∧
        s₁.task = .looping .waiting :=
    ⟨_, _, _, rfl, rfl, rfl, rfl, rfl, rfl⟩
  have has : slowDownRun =
      slowDownRun.take 7 ++ .upstream (.ok slowDown) :: [.collected, .sent] := rfl
  obtain ⟨b, htext, hcarries⟩ := (explained Crates.serdeJson_reference h₀ hrun hconn htask has hpre
    hwait).2.2 slowDown rfl rfl
  obtain rfl := htext.decoded .identity ⟨rfl, by decide +kernel⟩ rfl ⟨rfl, by decide +kernel⟩
  refine ⟨s₀, s, h₀, hrun, ?_⟩
  have hpayload : payload Gateway.reference.crates Gateway.reference.kind slowDown.status
      (some (Coding.identity.decoder Gateway.reference.crates slowDown.body.bytes).output) none =
        Json.object [("error".toList, Json.object [
          ("message".toList, .string "slow down".toList)])] :=
    payload_of_upstreamPayload (by decide +kernel) rfl _ none
  rwa [hpayload] at hcarries

end KeepSse.Sse
