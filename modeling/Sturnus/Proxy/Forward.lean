import Mathlib.Data.Seq.Defs
import Sturnus.Metrics
import Sturnus.ModelMap
import Sturnus.Proxy.Outbound

/-!
# Forwarding a request

What `forward_request` makes of the answers it awaits: the token, the response
and the items of its body, which may go on forever.
-/

namespace Sturnus

open Foundation Foundation.Http

/-- A chunk of a response body, or the error that ends it. -/
abbrev BodyItem := Except Text (List UInt8)

structure UpstreamResponse where
  status : StatusCode
  headers : HeaderMap
  contentLength : Option UInt64
  body : Stream'.Seq BodyItem

/-- Upstream latency tagged with what was measured. -/
inductive UpstreamLatency where
  | ttfc (elapsed : Duration)
  | total (elapsed : Duration)

inductive ProxyBody where
  | streaming (frames : Stream'.Seq (List UInt8))
  | full (bytes : List UInt8)

structure ProxyResult where
  status : StatusCode
  headers : HeaderMap
  body : ProxyBody
  latency : UpstreamLatency

inductive ForwardError where
  | noTokenProvider
  | token (message : Text)
  | send (message : Text)
  | chunk (message : Text)
  | overCap (cap : UInt64)

def ForwardError.message : ForwardError → Text
  | .noTokenProvider => "gcp auth requires GCP token provider".toList
  | .token message | .send message | .chunk message => message
  | .overCap cap =>
      "upstream response exceeds the ".toList ++ (toString cap.toNat).toList ++ " byte cap".toList

/-- The token provider; what it yields is part of the exchange. -/
structure GcpTokenProvider where

/-- What one forwarding call gets to see. -/
structure Exchange where
  token : Except Text Text
  /-- Building the request may fail as well. -/
  sent : Except Text UpstreamResponse
  /-- How many items of the body were awaited. -/
  awaited : ℕ
  elapsed : Duration

section Response

/-- Origin-scoped response headers. -/
def responseOnlyStrip : List HeaderName :=
  [staticName "proxy-authenticate", staticName "set-cookie", staticName "alt-svc"]

def sanitizeResponseHeaders (upstream : HeaderMap) : HeaderMap :=
  upstream.entries.foldl (fun headers entry =>
    if isHopByHop entry.1 || responseOnlyStrip.contains entry.1 then headers
    else entry.2.foldl (fun headers value => headers.append entry.1 value) headers) ∅

def relayErrorEvent : List UInt8 :=
  Text.bytes (("data: \x7b\"error\":\x7b\"message\":\"upstream stream error\"," ++
    "\"type\":\"proxy_error\"\x7d\x7d\n\n").toList)

/-- An error becomes one event that ends the stream. -/
def relayStep : Bool × Stream'.Seq BodyItem →
    Option (List UInt8 × Bool × Stream'.Seq BodyItem)
  | (true, _) => none
  | (false, stream) =>
      match stream.destruct with
      | none => none
      | some (.ok chunk, rest) => some (chunk, false, rest)
      | some (.error _, rest) => some (relayErrorEvent, true, rest)

def buildRelayStream (stream : Stream'.Seq BodyItem) : Stream'.Seq (List UInt8) :=
  .corec relayStep (false, stream)

/-- The loop of `read_capped`, for so many items; `none` awaits another one. -/
def readItems (cap : UInt64) : ℕ → Stream'.Seq BodyItem → List UInt8 →
    Option (Except ForwardError (List UInt8))
  | 0, _, _ => none
  | awaited + 1, stream, buf =>
      match stream.destruct with
      | none => some (.ok buf)
      | some (.error message, _) => some (.error (.chunk message))
      | some (.ok chunk, rest) =>
          if cap.toNat < buf.length + chunk.length then some (.error (.overCap cap))
          else readItems cap awaited rest (buf ++ chunk)

/-- Buffer a non-streaming response, bounded by `cap`. -/
def readCapped (cap : UInt64) (awaited : ℕ) (response : UpstreamResponse) :
    Option (Except ForwardError (List UInt8)) :=
  if response.contentLength.any (cap < ·) then some (.error (.overCap cap))
  else readItems cap awaited response.body []

/-- Await the first chunk and relay the rest behind it. -/
def firstChunk (stream : Stream'.Seq BodyItem) : Except ForwardError (Stream'.Seq (List UInt8)) :=
  match stream.destruct with
  | some (.ok chunk, rest) => .ok (.cons chunk (buildRelayStream rest))
  | some (.error message, _) => .error (.chunk message)
  | none => .ok (.cons [] .nil)

end Response

/-- The credentials a kind has to fetch before it sends. -/
def authorize (kind : ProviderKind) (provider : Option GcpTokenProvider) (exchange : Exchange) :
    Except ForwardError Unit :=
  match kind with
  | .gcpAdc => do
      let _ ← okOr provider .noTokenProvider
      let _ ← exchange.token.mapError .token
      return ()
  | .apiKey | .azureOpenAi _ | .anthropic _ => .ok ()

/-- What is made of a response; `none` awaits another item of its body. -/
def receive (isStreaming : Bool) (maxResponseBytes : UInt64) (exchange : Exchange)
    (response : UpstreamResponse) : Option (Except ForwardError ProxyResult) :=
  let headers := sanitizeResponseHeaders response.headers
  if isStreaming then
    some ((firstChunk response.body).map fun frames =>
      ⟨response.status, headers, .streaming frames, .ttfc exchange.elapsed⟩)
  else
    (readCapped maxResponseBytes exchange.awaited response).map fun read =>
      read.map fun bytes => ⟨response.status, headers, .full bytes, .total exchange.elapsed⟩

def forwardRequest (candidate : ResolvedCandidate) (isStreaming : Bool)
    (maxResponseBytes : UInt64) (provider : Option GcpTokenProvider) (exchange : Exchange) :
    Option (Except ForwardError ProxyResult) :=
  match authorize candidate.kind provider exchange with
  | .error error => some (.error error)
  | .ok () =>
      match exchange.sent with
      | .error message => some (.error (.send message))
      | .ok response => receive isStreaming maxResponseBytes exchange response

section Success

/-- The request went out and was answered. -/
def Exchange.Answered (exchange : Exchange) (kind : ProviderKind)
    (provider : Option GcpTokenProvider) (response : UpstreamResponse) : Prop :=
  (kind = .gcpAdc → provider.isSome = true ∧ ∃ token, exchange.token = .ok token) ∧
    exchange.sent = .ok response

/-- The whole body is within the cap, declared and read. -/
def UpstreamResponse.WithinCap (response : UpstreamResponse) (cap : UInt64) : Prop :=
  (∀ length ∈ response.contentLength, length ≤ cap) ∧
    ∃ chunks : List (List UInt8), response.body = .ofList (chunks.map .ok) ∧
      chunks.flatten.length ≤ cap.toNat

/-- An answer with a 2xx status whose first item is not an error (streaming), or whose
whole body is within the cap (non-streaming). -/
def Exchange.Succeeds (exchange : Exchange) (kind : ProviderKind)
    (provider : Option GcpTokenProvider) (isStreaming : Bool) (cap : UInt64) : Prop :=
  ∃ response, exchange.Answered kind provider response ∧ response.status.isSuccess = true ∧
    if isStreaming then ∀ message, response.body.head ≠ some (.error message)
    else response.WithinCap cap

/-- A stream of chunks begins with a chunk, and chunks follow it. -/
theorem cons_eq_chunks_iff {item : BodyItem} {rest : Stream'.Seq BodyItem}
    {chunks : List (List UInt8)} :
    Stream'.Seq.cons item rest = .ofList (chunks.map .ok) ↔
      ∃ chunk others, chunks = chunk :: others ∧ item = .ok chunk ∧
        rest = .ofList (others.map .ok) := by
  cases chunks with
  | nil => simp
  | cons first others =>
      rw [List.map_cons, Stream'.Seq.ofList_cons, Stream'.Seq.cons_eq_cons]
      simp

theorem nil_eq_chunks_iff {chunks : List (List UInt8)} :
    (.nil : Stream'.Seq BodyItem) = .ofList (chunks.map .ok) ↔ chunks = [] := by
  cases chunks <;> simp

/-- A chunk that arrives moves from the body to the buffer. -/
theorem exists_chunks_cons_iff {cap : UInt64} {awaited : ℕ} {rest : Stream'.Seq BodyItem}
    {chunk buf bytes : List UInt8} :
    (∃ chunks : List (List UInt8),
      Stream'.Seq.cons (.ok chunk) rest = .ofList (chunks.map .ok) ∧
      chunks.length < awaited + 1 ∧ buf.length + chunks.flatten.length ≤ cap.toNat ∧
      bytes = buf ++ chunks.flatten) ↔
    ∃ chunks : List (List UInt8), rest = .ofList (chunks.map .ok) ∧ chunks.length < awaited ∧
      (buf ++ chunk).length + chunks.flatten.length ≤ cap.toNat ∧
      bytes = buf ++ chunk ++ chunks.flatten := by
  constructor
  · rintro ⟨chunks, same, few, bounded, rfl⟩
    obtain ⟨first, others, rfl, isChunk, tail⟩ := cons_eq_chunks_iff.mp same
    cases isChunk
    rw [List.flatten_cons, List.length_append, ← Nat.add_assoc] at bounded
    refine ⟨others, tail, Nat.lt_of_succ_lt_succ few, ?_, (List.append_assoc _ _ _).symm⟩
    rwa [List.length_append]
  · rintro ⟨others, same, few, bounded, rfl⟩
    rw [List.length_append, Nat.add_assoc] at bounded
    refine ⟨chunk :: others, cons_eq_chunks_iff.mpr ⟨chunk, others, rfl, rfl, same⟩,
      Nat.succ_lt_succ few, ?_, List.append_assoc _ _ _⟩
    rwa [List.flatten_cons, List.length_append]

/-- The loop ends well on exactly the chunks that fit, once it has awaited their end. -/
theorem readItems_eq_ok_iff {cap : UInt64} {awaited : ℕ} {stream : Stream'.Seq BodyItem}
    {buf bytes : List UInt8} (within : buf.length ≤ cap.toNat) :
    readItems cap awaited stream buf = some (.ok bytes) ↔
      ∃ chunks : List (List UInt8), stream = .ofList (chunks.map .ok) ∧
        chunks.length < awaited ∧ buf.length + chunks.flatten.length ≤ cap.toNat ∧
        bytes = buf ++ chunks.flatten := by
  induction awaited generalizing stream buf with
  | zero =>
      apply iff_of_false
      · rintro ⟨⟩
      · rintro ⟨chunks, -, few, -⟩
        exact absurd few (Nat.not_lt_zero _)
  | succ awaited inductionHypothesis =>
      unfold readItems
      split
      next ended =>
        rw [Stream'.Seq.destruct_eq_none ended]
        simp only [nil_eq_chunks_iff, exists_eq_left, List.length_nil, List.flatten_nil,
          Nat.zero_lt_succ, Nat.add_zero, within, true_and, List.append_nil, Option.some.injEq,
          Except.ok.injEq, eq_comm]
      next message rest failed =>
        rw [Stream'.Seq.destruct_eq_cons failed]
        apply iff_of_false
        · rintro ⟨⟩
        · rintro ⟨chunks, same, -⟩
          obtain ⟨chunk, others, -, isChunk, -⟩ := cons_eq_chunks_iff.mp same
          cases isChunk
      next chunk rest arrived =>
        rw [Stream'.Seq.destruct_eq_cons arrived, exists_chunks_cons_iff, ← List.length_append]
        split
        next tooLong =>
          apply iff_of_false
          · rintro ⟨⟩
          · rintro ⟨chunks, -, -, bounded, -⟩
            exact absurd (Nat.le_of_add_right_le bounded) (Nat.not_le.mpr tooLong)
        next fits => exact inductionHypothesis (Nat.not_lt.mp fits)

/-- Awaiting more does not change what was returned. -/
theorem readItems_mono {cap : UInt64} {awaited : ℕ} {stream : Stream'.Seq BodyItem}
    {buf : List UInt8} {result : Except ForwardError (List UInt8)}
    (read : readItems cap awaited stream buf = some result) (more : ℕ) :
    readItems cap (awaited + more) stream buf = some result := by
  induction awaited generalizing stream buf with
  | zero => cases read
  | succ awaited inductionHypothesis =>
      rw [Nat.add_right_comm]
      unfold readItems at read ⊢
      split
      next ended => simpa only [ended] using read
      next message rest failed => simpa only [failed] using read
      next chunk rest arrived =>
        simp only [arrived] at read
        split
        next tooLong => simpa only [if_pos tooLong] using read
        next fits =>
          rw [if_neg fits] at read
          exact inductionHypothesis read

theorem readItems_ok_iff {cap : UInt64} {awaited : ℕ} {stream : Stream'.Seq BodyItem}
    {buf : List UInt8} {result : Except ForwardError (List UInt8)}
    (within : buf.length ≤ cap.toNat) (read : readItems cap awaited stream buf = some result) :
    (∃ bytes, result = .ok bytes) ↔ ∃ chunks : List (List UInt8),
      stream = .ofList (chunks.map .ok) ∧ buf.length + chunks.flatten.length ≤ cap.toNat := by
  constructor
  · rintro ⟨bytes, rfl⟩
    obtain ⟨chunks, same, -, bounded, -⟩ := (readItems_eq_ok_iff within).mp read
    exact ⟨chunks, same, bounded⟩
  · rintro ⟨chunks, same, bounded⟩
    have whole : readItems cap (awaited + (chunks.length + 1)) stream buf =
        some (.ok (buf ++ chunks.flatten)) :=
      (readItems_eq_ok_iff within).mpr ⟨chunks, same, by omega, bounded, rfl⟩
    rw [readItems_mono read] at whole
    exact ⟨_, Option.some.inj whole⟩

theorem any_lt_contentLength {cap : UInt64} {response : UpstreamResponse} :
    response.contentLength.any (cap < ·) = true ↔
      ¬∀ length ∈ response.contentLength, length ≤ cap := by
  cases response.contentLength <;> simp

/-- Reading succeeds exactly on a body within the cap, however much was awaited. -/
theorem readCapped_ok_iff {cap : UInt64} {awaited : ℕ} {response : UpstreamResponse}
    {result : Except ForwardError (List UInt8)}
    (read : readCapped cap awaited response = some result) :
    (∃ bytes, result = .ok bytes) ↔ response.WithinCap cap := by
  unfold readCapped at read
  split at read
  next tooLong =>
    cases read
    apply iff_of_false
    · rintro ⟨bytes, same⟩
      cases same
    · exact fun within => any_lt_contentLength.mp tooLong within.1
  next allowed =>
    rw [any_lt_contentLength, not_not] at allowed
    rw [readItems_ok_iff (Nat.zero_le _) read]
    simp only [List.length_nil, Nat.zero_add]
    exact ⟨fun whole => ⟨allowed, whole⟩, fun within => within.2⟩

theorem firstChunk_ok_iff (stream : Stream'.Seq BodyItem) :
    (∃ frames, firstChunk stream = .ok frames) ↔
      ∀ message, stream.head ≠ some (.error message) := by
  rw [Stream'.Seq.head_eq_destruct]
  unfold firstChunk
  split
  next chunk rest arrived =>
    rw [arrived]
    exact iff_of_true ⟨_, rfl⟩ (by rintro message ⟨⟩)
  next message rest failed =>
    rw [failed]
    exact iff_of_false (by rintro ⟨frames, ⟨⟩⟩) fun chunk => chunk message rfl
  next ended =>
    rw [ended]
    exact iff_of_true ⟨_, rfl⟩ (by rintro message ⟨⟩)

theorem authorize_ok_iff {kind : ProviderKind} {provider : Option GcpTokenProvider}
    {exchange : Exchange} :
    authorize kind provider exchange = .ok () ↔
      (kind = .gcpAdc → provider.isSome = true ∧ ∃ token, exchange.token = .ok token) := by
  cases kind with
  | gcpAdc =>
      unfold authorize
      cases provider with
      | none => simp [okOr, bind, Except.bind]
      | some _ =>
          cases exchange.token <;>
            simp [okOr, bind, Except.bind, pure, Except.pure, Except.mapError]
  | apiKey | azureOpenAi version | anthropic version => simp [authorize]

/-- An answered call receives the answer. -/
theorem forwardRequest_of_answered {candidate : ResolvedCandidate} (isStreaming : Bool)
    (cap : UInt64) {provider : Option GcpTokenProvider} {exchange : Exchange}
    {response : UpstreamResponse}
    (answered : exchange.Answered candidate.kind provider response) :
    forwardRequest candidate isStreaming cap provider exchange =
      receive isStreaming cap exchange response := by
  rw [forwardRequest, authorize_ok_iff.mpr answered.1, answered.2]

theorem receive_succeeds_iff {isStreaming : Bool} {cap : UInt64} {exchange : Exchange}
    {response : UpstreamResponse} {result : Except ForwardError ProxyResult}
    (ended : receive isStreaming cap exchange response = some result) :
    (∃ answer, result = .ok answer ∧ answer.status.isSuccess = true) ↔
      response.status.isSuccess = true ∧
        if isStreaming then ∀ message, response.body.head ≠ some (.error message)
        else response.WithinCap cap := by
  cases isStreaming with
  | true =>
      cases ended
      simp only [if_true, ← firstChunk_ok_iff]
      cases firstChunk response.body <;> simp [Except.map]
  | false =>
      obtain ⟨read, whole, rfl⟩ := Option.map_eq_some_iff.mp ended
      simp only [Bool.false_eq_true, if_false, ← readCapped_ok_iff whole]
      cases read <;> simp [Except.map]

/-- A forwarding call ends in a 2xx answer exactly when the exchange succeeds. -/
theorem forwardRequest_succeeds_iff {candidate : ResolvedCandidate} {isStreaming : Bool}
    {cap : UInt64} {provider : Option GcpTokenProvider} {exchange : Exchange}
    {result : Except ForwardError ProxyResult}
    (ended : forwardRequest candidate isStreaming cap provider exchange = some result) :
    (∃ answer, result = .ok answer ∧ answer.status.isSuccess = true) ↔
      exchange.Succeeds candidate.kind provider isStreaming cap := by
  unfold forwardRequest at ended
  unfold Exchange.Succeeds Exchange.Answered
  simp only [← authorize_ok_iff]
  split at ended
  next error refused =>
    cases ended
    simp [refused]
  next authorized =>
    split at ended
    next message failed =>
      cases ended
      simp [failed]
    next response answered =>
      rw [receive_succeeds_iff ended]
      simp [authorized, answered]

def UpstreamLatency.mode : UpstreamLatency → LatencyMode
  | .ttfc _ => .streaming
  | .total _ => .nonStreaming

def LatencyMode.ofStreaming (isStreaming : Bool) : LatencyMode :=
  if isStreaming then .streaming else .nonStreaming

/-- An answer carries the upstream's status and what is left of its headers. -/
theorem forwardRequest_eq_ok {candidate : ResolvedCandidate} {isStreaming : Bool}
    {cap : UInt64} {provider : Option GcpTokenProvider} {exchange : Exchange}
    {answer : ProxyResult}
    (ended : forwardRequest candidate isStreaming cap provider exchange = some (.ok answer)) :
    ∃ response body, exchange.sent = .ok response ∧
      answer = ⟨response.status, sanitizeResponseHeaders response.headers, body,
        if isStreaming then .ttfc exchange.elapsed else .total exchange.elapsed⟩ := by
  unfold forwardRequest at ended
  split at ended
  next => cases ended
  next =>
    split at ended
    next => cases ended
    next response answered =>
      cases isStreaming with
      | true =>
          obtain ⟨frames, -, same⟩ := exists_of_map_eq_ok (Option.some.inj ended)
          exact ⟨response, .streaming frames, answered, same.symm⟩
      | false =>
          obtain ⟨read, -, mapped⟩ := Option.map_eq_some_iff.mp ended
          obtain ⟨bytes, -, same⟩ := exists_of_map_eq_ok mapped
          exact ⟨response, .full bytes, answered, same.symm⟩

/-- What is measured is what the request asked for. -/
theorem forwardRequest_mode {candidate : ResolvedCandidate} {isStreaming : Bool}
    {cap : UInt64} {provider : Option GcpTokenProvider} {exchange : Exchange}
    {answer : ProxyResult}
    (ended : forwardRequest candidate isStreaming cap provider exchange = some (.ok answer)) :
    answer.latency.mode = .ofStreaming isStreaming := by
  obtain ⟨response, body, -, rfl⟩ := forwardRequest_eq_ok ended
  cases isStreaming <;> rfl

end Success

end Sturnus
