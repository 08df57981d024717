import Mathlib.Data.Seq.Basic
import Sturnus.Foundation.Sse
import Sturnus.Proxy.Forward

/-!
# A stream that fails half-way

The relay passes chunks on as they arrive and appends its error event to
whatever came before.  A client decodes that event as one of its own only if
the upstream failed where an event may begin.
-/

namespace Sturnus

open Foundation Foundation.Http Foundation.Sse

/-- Chunks, an error, and what may come behind it. -/
def failing (chunks : List (List UInt8)) (message : Text) (after : Stream'.Seq BodyItem) :
    Stream'.Seq BodyItem :=
  (Stream'.Seq.ofList (chunks.map .ok)).append (.cons (.error message) after)

/-- The JSON of the error event. -/
def proxyError : List UInt8 :=
  Text.bytes (("\x7b\"error\":\x7b\"message\":\"upstream stream error\"," ++
    "\"type\":\"proxy_error\"\x7d\x7d").toList)

theorem relayErrorEvent_eq : relayErrorEvent = dataEvent proxyError := by decide +kernel

theorem proxyError_singleLine : SingleLine proxyError := by decide +kernel

section Frames

variable (message : Text) (after : Stream'.Seq BodyItem)

theorem failing_cons (chunk : List UInt8) (chunks : List (List UInt8)) :
    failing (chunk :: chunks) message after = .cons (.ok chunk) (failing chunks message after) := by
  simp only [failing, List.map_cons, Stream'.Seq.ofList_cons, Stream'.Seq.cons_append]

omit message after in
theorem buildRelayStream_cons (chunk : List UInt8) (rest : Stream'.Seq BodyItem) :
    buildRelayStream (.cons (.ok chunk) rest) = .cons chunk (buildRelayStream rest) := by
  have step : relayStep (false, .cons (.ok chunk) rest) = some (chunk, false, rest) := by
    rw [relayStep, Stream'.Seq.destruct_cons]
  exact Stream'.Seq.corec_cons step

/-- Nothing follows the error event. -/
theorem buildRelayStream_failing (chunks : List (List UInt8)) :
    buildRelayStream (failing chunks message after) = .ofList (chunks ++ [relayErrorEvent]) := by
  induction chunks with
  | nil =>
      have step : relayStep (false, failing [] message after) =
          some (relayErrorEvent, true, after) := by
        simp [relayStep, failing]
      have ended : relayStep (true, after) = none := rfl
      rw [buildRelayStream, Stream'.Seq.corec_cons step, Stream'.Seq.corec_nil _ _ ended]
      simp
  | cons chunk rest inductionHypothesis =>
      rw [failing_cons, buildRelayStream_cons, inductionHypothesis, List.cons_append,
        Stream'.Seq.ofList_cons]

theorem firstChunk_failing (chunk : List UInt8) (chunks : List (List UInt8)) :
    firstChunk (failing (chunk :: chunks) message after) =
      .ok (.ofList (chunk :: chunks ++ [relayErrorEvent])) := by
  rw [failing_cons, firstChunk, Stream'.Seq.destruct_cons]
  simp only [buildRelayStream_failing, List.cons_append, Stream'.Seq.ofList_cons]

end Frames

variable {candidate : ResolvedCandidate} {cap : UInt64} {provider : Option GcpTokenProvider}
  {exchange : Exchange} {response : UpstreamResponse}

/-- What a streaming call passes on of an answer whose body fails after its first chunk. -/
theorem forwardRequest_failing
    (answered : exchange.Answered candidate.kind provider response) {chunk : List UInt8}
    {chunks : List (List UInt8)} {message : Text} {after : Stream'.Seq BodyItem}
    (failed : response.body = failing (chunk :: chunks) message after) :
    forwardRequest candidate true cap provider exchange = some (.ok
      ⟨response.status, sanitizeResponseHeaders response.headers,
        .streaming (.ofList (chunk :: chunks ++ [relayErrorEvent])), .ttfc exchange.elapsed⟩) := by
  rw [forwardRequest_of_answered true cap answered]
  simp only [receive, if_true, failed, firstChunk_failing]
  rfl

/-- The error event is decoded as one more event exactly if the bytes before the failure end
where an event may begin, or if they leave an event with the very same data open in a line
that is not data. -/
theorem stream_failure_visible_iff
    (answered : exchange.Answered candidate.kind provider response) {chunk : List UInt8}
    {chunks : List (List UInt8)} {message : Text} {after : Stream'.Seq BodyItem}
    (failed : response.body = failing (chunk :: chunks) message after) :
    ∃ frames : List (List UInt8),
      forwardRequest candidate true cap provider exchange = some (.ok
        ⟨response.status, sanitizeResponseHeaders response.headers,
          .streaming (.ofList frames), .ttfc exchange.elapsed⟩) ∧
      (decode frames.flatten = decode (chunk :: chunks).flatten ++ [proxyError] ↔
        (Decoder.start.feed (chunk :: chunks).flatten).Idle ∨
        (Decoder.start.feed (chunk :: chunks).flatten).Repeats proxyError) := by
  refine ⟨_, forwardRequest_failing answered failed, ?_⟩
  have relayed : (chunk :: chunks ++ [relayErrorEvent]).flatten =
      (chunk :: chunks).flatten ++ dataEvent proxyError := by
    rw [List.flatten_append, List.flatten_singleton, relayErrorEvent_eq]
  rw [relayed, decode, decode, Decoder.feed_append]
  exact Decoder.events_feed_dataEvent_iff proxyError_singleLine

/-- An answer whose body is these bytes in one chunk, and then an error. -/
def interrupted (status : StatusCode) (bytes : List UInt8) : UpstreamResponse where
  status := status
  headers := ∅
  contentLength := none
  body := failing [bytes] "connection reset".toList .nil

def answering (response : UpstreamResponse) : Exchange where
  token := .ok []
  sent := .ok response
  awaited := 0
  elapsed := .fromMillis 5

theorem answering_answered (kind : candidate.kind = .apiKey) (response : UpstreamResponse) :
    (answering response).Answered candidate.kind none response := by
  refine ⟨fun adc => ?_, rfl⟩
  rw [kind] at adc
  cases adc

/-- A model map with one candidate that needs no token. -/
theorem fromConfig_one :
    ∃ map tracker candidate, (fromConfig (Config.single "openai".toList
        "https://api.openai.com/v1".toList "fast".toList ["gpt-4o".toList])
        (.new 0 0 : Tracker ℝ) : Except (ConfigError ℝ Text) _) = .ok (map, tracker) ∧
      candidate ∈ map.candidates ∧ candidate.kind = .apiKey :=
  ⟨_, _, _, rfl, List.mem_singleton_self _, rfl⟩

theorem stream_failure_visible_after_event :
    ∃ map tracker, (fromConfig (Config.single "openai".toList "https://api.openai.com/v1".toList
        "fast".toList ["gpt-4o".toList]) (.new 0 0 : Tracker ℝ) :
        Except (ConfigError ℝ Text) _) = .ok (map, tracker) ∧
      ∃ candidate ∈ map.candidates, ∃ status headers frames latency,
        forwardRequest candidate true 0 none
            (answering (interrupted ⟨200, by decide⟩ (Text.bytes "data: a\n\n".toList))) =
          some (.ok ⟨status, headers, .streaming (.ofList frames), latency⟩) ∧
        decode frames.flatten = [Text.bytes "a".toList, proxyError] := by
  obtain ⟨map, tracker, candidate, accepted, member, kind⟩ := fromConfig_one
  obtain ⟨frames, relayed, visible⟩ := stream_failure_visible_iff
    (answering_answered kind (interrupted ⟨200, by decide⟩ (Text.bytes "data: a\n\n".toList))) rfl
  refine ⟨map, tracker, accepted, candidate, member, _, _, frames, _, relayed, ?_⟩
  rw [visible.mpr (.inl ⟨by decide +kernel, by decide +kernel⟩)]
  decide +kernel

/-- Cut inside `data`, the error event becomes the rest of a field that no one knows. -/
theorem stream_failure_swallowed :
    ∃ map tracker, (fromConfig (Config.single "openai".toList "https://api.openai.com/v1".toList
        "fast".toList ["gpt-4o".toList]) (.new 0 0 : Tracker ℝ) :
        Except (ConfigError ℝ Text) _) = .ok (map, tracker) ∧
      ∃ candidate ∈ map.candidates, ∃ status headers frames latency,
        forwardRequest candidate true 0 none
            (answering (interrupted ⟨200, by decide⟩ (Text.bytes "data: a\n\ndat".toList))) =
          some (.ok ⟨status, headers, .streaming (.ofList frames), latency⟩) ∧
        decode frames.flatten = [Text.bytes "a".toList] ∧
        decode (Text.bytes "data: a\n\ndat".toList) = [Text.bytes "a".toList] := by
  obtain ⟨map, tracker, candidate, accepted, member, kind⟩ := fromConfig_one
  refine ⟨map, tracker, accepted, candidate, member, _, _, _, _,
    forwardRequest_failing (answering_answered kind _) rfl, ?_, ?_⟩
  · decide +kernel
  · decide +kernel

end Sturnus
