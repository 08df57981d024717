import Sturnus.Foundation.Fallible
import Sturnus.Proxy.Relay

/-!
# What the client sees of a streamed body

The first chunk is awaited on its own and chained with the relay of the rest.
Nothing is lost, repeated or reordered at the seam, and nothing behind the first
error is passed on.
-/

namespace Sturnus

open Foundation Foundation.Http

/-- The frames of the answer to a streaming request, or the error that replaces it. -/
def relayed : Course Text (List UInt8) → Except ForwardError (Stream'.Seq (List UInt8))
  | .ended [] => .ok (.ofList [[]])
  | .ended chunks => .ok (.ofList chunks)
  | .failed [] message _ => .error (.chunk message)
  | .failed chunks _ _ => .ok (.ofList (chunks ++ [relayErrorEvent]))
  | .endless chunks => .ok (.ofStream chunks)

theorem buildRelayStream_nil : buildRelayStream .nil = .nil := by
  have ended : relayStep (false, .nil) = none := rfl
  exact Stream'.Seq.corec_nil _ _ ended

theorem buildRelayStream_ended (chunks : List (List UInt8)) :
    buildRelayStream (.ofList (chunks.map .ok)) = .ofList chunks := by
  induction chunks with
  | nil => exact buildRelayStream_nil
  | cons chunk rest inductionHypothesis =>
      rw [List.map_cons, Stream'.Seq.ofList_cons, buildRelayStream_cons, inductionHypothesis,
        Stream'.Seq.ofList_cons]

theorem buildRelayStream_endless (chunks : Stream' (List UInt8)) :
    buildRelayStream (Course.endless chunks).toSeq = .ofStream chunks := by
  apply Stream'.Seq.ext
  intro n
  induction n generalizing chunks with
  | zero =>
      rw [Course.toSeq_endless, buildRelayStream_cons, Course.ofStream_eq_cons,
        Stream'.Seq.get?_cons_zero, Stream'.Seq.get?_cons_zero]
  | succ n inductionHypothesis =>
      rw [Course.toSeq_endless, buildRelayStream_cons, Course.ofStream_eq_cons chunks,
        Stream'.Seq.get?_cons_succ, Stream'.Seq.get?_cons_succ]
      exact inductionHypothesis chunks.tail

theorem firstChunk_toSeq (course : Course Text (List UInt8)) :
    firstChunk course.toSeq = relayed course := by
  cases course with
  | ended chunks =>
      cases chunks with
      | nil =>
          rw [Course.toSeq, List.map_nil, Stream'.Seq.ofList_nil, firstChunk,
            Stream'.Seq.destruct_nil]
          simp only [relayed, Stream'.Seq.ofList_cons, Stream'.Seq.ofList_nil]
      | cons chunk rest =>
          rw [Course.toSeq, List.map_cons, Stream'.Seq.ofList_cons, firstChunk,
            Stream'.Seq.destruct_cons]
          simp only [buildRelayStream_ended, relayed, Stream'.Seq.ofList_cons]
  | failed chunks message after =>
      cases chunks with
      | nil =>
          rw [Course.toSeq, List.map_nil, Stream'.Seq.ofList_nil, Stream'.Seq.nil_append,
            firstChunk, Stream'.Seq.destruct_cons]
          rfl
      | cons chunk rest => exact firstChunk_failing message after chunk rest
  | endless chunks =>
      rw [Course.toSeq_endless, firstChunk, Stream'.Seq.destruct_cons]
      simp only [buildRelayStream_endless, relayed]
      rw [Course.ofStream_eq_cons chunks]

variable {candidate : ResolvedCandidate} {cap : UInt64} {provider : Option GcpTokenProvider}
  {exchange : Exchange} {response : UpstreamResponse}

/-- Whatever the body of an answer yields, a streaming call relays its chunks up to the
first error, and then the error event. -/
theorem forwardRequest_streaming
    (answered : exchange.Answered candidate.kind provider response) :
    (∃ course : Course Text (List UInt8), response.body = course.toSeq) ∧
      ∀ course : Course Text (List UInt8), response.body = course.toSeq →
        forwardRequest candidate true cap provider exchange =
          some ((relayed course).map fun frames =>
            ⟨response.status, sanitizeResponseHeaders response.headers, .streaming frames,
              .ttfc exchange.elapsed⟩) := by
  refine ⟨Course.exists_toSeq_eq response.body, ?_⟩
  intro course same
  rw [forwardRequest_of_answered true cap answered]
  simp only [receive, if_true, same, firstChunk_toSeq]

/-- One event and then a failure. -/
theorem forwardRequest_streaming_interrupted :
    ∃ map tracker, (fromConfig (Config.single "openai".toList "https://api.openai.com/v1".toList
        "fast".toList ["gpt-4o".toList]) (.new 0 0 : Tracker ℝ) :
        Except (ConfigError ℝ Text) _) = .ok (map, tracker) ∧
      ∃ candidate ∈ map.candidates, ∃ status headers latency,
        forwardRequest candidate true 0 none
            (answering (interrupted ⟨200, by decide⟩ (Text.bytes "data: a\n\n".toList))) =
          some (.ok ⟨status, headers,
            .streaming (.ofList [Text.bytes "data: a\n\n".toList, relayErrorEvent]), latency⟩) := by
  obtain ⟨map, tracker, candidate, accepted, member, kind⟩ := fromConfig_one
  exact ⟨map, tracker, accepted, candidate, member, _, _, _,
    (forwardRequest_streaming (answering_answered kind _)).2
      (.failed [Text.bytes "data: a\n\n".toList] "connection reset".toList .nil) rfl⟩

end Sturnus
