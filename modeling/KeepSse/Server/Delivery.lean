import KeepSse.Server.Shutdown
import KeepSse.Sse.Decoded

/-!
# What the clients have in the end

The whole way of a stream, in a server with many clients that is shut down on the way: the bytes of
the upstream's body, the decoder, the chunks, the tracker, the heartbeats, the channel, and the
connection that is kept until it is empty. What a client reads at the end of it is what its own
upstream sent (`delivered_whole`).

## What it rests on

* That the stream has been received whole is a matter of the shutdown (`delivered`): a server that
  returns unforced has seen all connections closed, and a connection is kept as long as its session
  has something to deliver.
* Which stream it is, and that it is the session's own, is a matter of the history of the session
  (`exists_history`): its course is decided by its own upstream, in its own part of the run.
* How a stream reads that has been received whole is a matter of one session (`Sse.read_whole`):
  heartbeats fall between events, and the cuts into chunks make no difference.

## What is left out

A task that has panicked has dropped its sender, and its client has what was written before. Where
the clock is in range for the interval that does not happen (`no_panic` in `Server.Safety`); here it
is a hypothesis on the session. Another is that serde_json prints a value on one line, for the error
event; and the items of the run must be a cutting of what the decoder makes of the body, however
fine.
-/

namespace KeepSse.Server

open Text Http EventStream

section

variable {srv : Setup} {now : Instant} {s : State} {as : List Action} {j : ℕ} {ses : Session}

/-- **Streams are delivered whole.** When the server has returned without being forced to, each
client who stayed and whose own upstream answered with a stream in a coding that can be decoded
has read the events of the decoded body; and if the body broke off, its unfinished event was closed
and the error event followed. -/
theorem delivered_whole (D : Sse.Decoders) (hD : srv.crates.SerdeJson)
    (hrun : Transition.run (step srv) (.init now) as = some s)
    (hphase : s.phase = .returned false) (hses : s.sessions[j]? = some ses)
    (hconn : ses.state.connected = true) (htask : ses.state.task ≠ .panicked)
    {head : Response BoxBody} (hreply : ses.state.reply = some head)
    (hchannel : head.body = .channel) {resp : Response Incoming}
    (hans : .upstream (.ok resp) ∈ own j as) (hsuccess : resp.status.isSuccess = true) {ce : Coding}
    (hce : parseContentEncoding resp.headers = some ce)
    (hitems : Sse.Streams (Sse.decoderStream D ce resp.body) (Sse.items (own j as))) :
    read ses.state.received.flatten =
      match (Sse.decoderStream D ce resp.body).failure with
      | none => read (Sse.decoderStream D ce resp.body).output
      | some e => ⟨(read (Sse.decoderStream D ce resp.body).output).events ++
          closed (read (Sse.decoderStream D ce resp.body).output).unfinished ++
          (read (ErrorEvent.build srv.crates ses.kind none none (some e.message))).events,
          [], []⟩ := by
  have hleaving := leaving_run hrun
  simp only [Leaving, hphase] at hleaving
  obtain ⟨-, -, -, -, -, -, -, hclosed⟩ := hleaving
  obtain ⟨hfinal, hword⟩ := (delivered hrun hclosed hses hconn).resolve_left htask
  obtain ⟨h, hshare, hown, -⟩ := exists_history hrun hses
  have hans : .upstream (.ok resp) ∈ h.actions := by
    rw [← hown] at hans
    exact (List.mem_filter.1 hans).1
  have hrelays := Sse.course_of_success h.begun hshare hans hsuccess (by rw [hce]; rfl)
  have hchunks := Sse.chunks_run h.begun hshare
  have hanswer := (Sse.refines_run h.begun hshare).answer
  rw [hreply] at hanswer
  rw [← course_filter, hown] at hrelays hchunks hanswer
  rw [← yielded_filter, hown] at hchunks
  exact Sse.read_whole (g := srv.gateway ses.kind) D hD hrelays hfinal
    (Sse.Course.ne_passedOn hanswer hchannel) hchunks hword hitems

end

/-- The upstream's event comes in other pieces than it was sent in, with a heartbeat before its last
byte, and the server is told to stop in between. -/
def spokenClient : List Action := [
  .accept, .receive 0, .dispatch 0 streamRequest,
  .session 0 (.upstream (.ok Sse.spokenStream)), .session 0 .start,
  .session 0 (.item (.chunk (utf8 "data: a\r\n\r".toList))), .session 0 .sent, .session 0 .rearm,
  .clock (Sse.second 60), .session 0 .timer, .session 0 .sent, .session 0 .rearm,
  .shutdown, .stop,
  .session 0 (.item (.chunk (utf8 "\n".toList))), .session 0 .sent, .session 0 .rearm,
  .session 0 (.item .done), .session 0 .recv, .session 0 .recv, .session 0 .recv,
  .answered 0, .shed 0, .drained]

theorem spokenClient_spec :
    ∃ s ses, Transition.run (step .reference) (.init (Sse.second 0)) spokenClient = some s ∧
      s.phase = .returned false ∧ s.sessions[0]? = some ses ∧ ses.state.connected = true ∧
      ses.state.task = .finished ∧
      ses.state.reply = some (Sse.passthroughSseResponse Sse.spokenStream) :=
  ⟨_, _, rfl, rfl, rfl, rfl, rfl, rfl⟩

/-- The client has read the event. -/
theorem delivered_whole_spoken :
    ∃ s ses, Transition.run (step .reference) (.init (Sse.second 0)) spokenClient = some s ∧
      s.sessions[0]? = some ses ∧
      read ses.state.received.flatten = ⟨[[utf8 "data: a".toList]], [], []⟩ := by
  obtain ⟨s, ses, hrun, hphase, hses, hconn, htask, hreply⟩ := spokenClient_spec
  refine ⟨s, ses, hrun, hses, ?_⟩
  have hitems : Sse.Streams (Sse.decoderStream .reference .identity Sse.spokenStream.body)
      (Sse.items (own 0 spokenClient)) :=
    ⟨[utf8 "data: a\r\n\r".toList, utf8 "\n".toList], by decide +kernel, by decide +kernel⟩
  have hread := delivered_whole .reference Crates.serdeJson_reference hrun hphase hses hconn
    (by rw [htask]; exact Sse.Task.noConfusion) hreply rfl (by simp [own, spokenClient]) rfl rfl
    hitems
  have hbody : read (Sse.decoderStream .reference .identity Sse.spokenStream.body).output =
      ⟨[[utf8 "data: a".toList]], [], []⟩ := by
    decide +kernel
  rw [hread, ← hbody]
  rfl

end KeepSse.Server
