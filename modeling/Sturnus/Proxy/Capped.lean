import Sturnus.Proxy.Relay

/-!
# Buffering a response under a cap

The declared length is checked once and the bytes read so far before every
chunk is kept.  Together they are exact: a body is returned whole if and only
if it fits, and a body that does not fit is given up at the first chunk too many.
-/

namespace Sturnus

open Foundation Foundation.Http

/-- One turn of the loop of `read_capped`: its result, or the items and bytes it goes on with. -/
def readStep (cap : UInt64) (stream : Stream'.Seq BodyItem) (buf : List UInt8) :
    Except ForwardError (List UInt8) ⊕ Stream'.Seq BodyItem × List UInt8 :=
  match stream.destruct with
  | none => .inl (.ok buf)
  | some (.error message, _) => .inl (.error (.chunk message))
  | some (.ok chunk, rest) =>
      if cap.toNat < buf.length + chunk.length then .inl (.error (.overCap cap))
      else .inr (rest, buf ++ chunk)

/-- The loop turns until there is a result. -/
theorem readItems_succ (cap : UInt64) (awaited : ℕ) (stream : Stream'.Seq BodyItem)
    (buf : List UInt8) :
    readItems cap (awaited + 1) stream buf =
      match readStep cap stream buf with
      | .inl result => some result
      | .inr (rest, extended) => readItems cap awaited rest extended := by
  cases stream with
  | nil => rw [readItems, readStep, Stream'.Seq.destruct_nil]
  | cons item rest =>
      rw [readItems, readStep, Stream'.Seq.destruct_cons]
      cases item with
      | error message => rfl
      | ok chunk =>
          by_cases exceeds : cap.toNat < buf.length + chunk.length
          · simp only [if_pos exceeds]
          · simp only [if_neg exceeds]

/-- What the loop holds after so many turns on `body`. -/
inductive Turned (cap : UInt64) (body : Stream'.Seq BodyItem) :
    ℕ → Stream'.Seq BodyItem → List UInt8 → Prop where
  | start : Turned cap body 0 body []
  | turn {n stream buf rest extended} : Turned cap body n stream buf →
      readStep cap stream buf = .inr (rest, extended) → Turned cap body (n + 1) rest extended

theorem readStep_eq_inr {cap : UInt64} {stream rest : Stream'.Seq BodyItem}
    {buf extended : List UInt8} (step : readStep cap stream buf = .inr (rest, extended)) :
    ∃ chunk, stream = .cons (.ok chunk) rest ∧ extended = buf ++ chunk ∧
      buf.length + chunk.length ≤ cap.toNat := by
  unfold readStep at step
  split at step
  next => cases step
  next => cases step
  next chunk others arrived =>
    split at step
    next => cases step
    next fits =>
      cases step
      exact ⟨chunk, Stream'.Seq.destruct_eq_cons arrived, rfl, not_lt.mp fits⟩

theorem Turned.readItems_eq {cap : UInt64} {body stream : Stream'.Seq BodyItem} {n : ℕ}
    {buf : List UInt8} (turned : Turned cap body n stream buf) (awaited : ℕ) :
    readItems cap (n + awaited) body [] = readItems cap awaited stream buf := by
  induction turned generalizing awaited with
  | start => rw [Nat.zero_add]
  | turn _ step inductionHypothesis =>
      rw [Nat.add_assoc, Nat.add_comm 1, inductionHypothesis, readItems_succ, step]

theorem append_concat (chunks : List (List UInt8)) (chunk : List UInt8)
    (stream : Stream'.Seq BodyItem) :
    (Stream'.Seq.ofList ((chunks ++ [chunk]).map .ok)).append stream =
      (Stream'.Seq.ofList (chunks.map .ok)).append (.cons (.ok chunk) stream) := by
  rw [List.map_append, Stream'.Seq.ofList_append, Stream'.Seq.append_assoc, List.map_singleton,
    Stream'.Seq.ofList_cons, Stream'.Seq.ofList_nil, Stream'.Seq.cons_append,
    Stream'.Seq.nil_append]

/-- The loop invariant. -/
theorem Turned.kept {cap : UInt64} {body stream : Stream'.Seq BodyItem} {n : ℕ}
    {buf : List UInt8} (turned : Turned cap body n stream buf) :
    buf.length ≤ cap.toNat ∧ ∃ chunks : List (List UInt8), chunks.length = n ∧
      body = (Stream'.Seq.ofList (chunks.map .ok)).append stream ∧ buf = chunks.flatten := by
  induction turned with
  | start =>
      refine ⟨Nat.zero_le _, [], rfl, ?_, rfl⟩
      rw [List.map_nil, Stream'.Seq.ofList_nil, Stream'.Seq.nil_append]
  | turn _ step inductionHypothesis =>
      obtain ⟨-, chunks, rfl, rfl, rfl⟩ := inductionHypothesis
      obtain ⟨chunk, rfl, rfl, fits⟩ := readStep_eq_inr step
      refine ⟨(List.length_append).trans_le fits, chunks ++ [chunk], ?_, ?_, ?_⟩
      · rw [List.length_append, List.length_singleton]
      · rw [append_concat]
      · rw [List.flatten_append, List.flatten_singleton]

/-- Chunks that fit are all kept. -/
theorem turned_of_fits {cap : UInt64} {body stream : Stream'.Seq BodyItem}
    {chunks : List (List UInt8)}
    (split : body = (Stream'.Seq.ofList (chunks.map .ok)).append stream)
    (fits : chunks.flatten.length ≤ cap.toNat) :
    Turned cap body chunks.length stream chunks.flatten := by
  induction chunks using List.reverseRecOn generalizing stream with
  | nil =>
      rw [List.map_nil, Stream'.Seq.ofList_nil, Stream'.Seq.nil_append] at split
      rw [← split]
      exact .start
  | append_singleton chunks chunk inductionHypothesis =>
      rw [List.flatten_append, List.flatten_singleton, List.length_append] at fits
      rw [append_concat] at split
      have step : readStep cap (.cons (.ok chunk) stream) chunks.flatten =
          .inr (stream, chunks.flatten ++ chunk) := by
        rw [readStep, Stream'.Seq.destruct_cons]
        exact if_neg (not_lt.mpr fits)
      rw [List.length_append, List.length_singleton, List.flatten_append, List.flatten_singleton]
      exact (inductionHypothesis split (by omega)).turn step

/-- Items that end or fail end the loop, whatever is behind a failure. -/
theorem exists_readItems_eq (cap : UInt64) {items : List BodyItem} {after : Stream'.Seq BodyItem}
    (stops : after = .nil ∨ ∃ message, .error message ∈ items) (buf : List UInt8) {awaited : ℕ}
    (enough : items.length < awaited) :
    ∃ result, readItems cap awaited ((Stream'.Seq.ofList items).append after) buf =
      some result := by
  induction items generalizing buf awaited with
  | nil =>
      obtain ⟨more, rfl⟩ := Nat.exists_eq_add_one.mpr enough
      obtain rfl : after = .nil := stops.resolve_right (by simp)
      rw [Stream'.Seq.ofList_nil, Stream'.Seq.nil_append, readItems_succ, readStep,
        Stream'.Seq.destruct_nil]
      exact ⟨_, rfl⟩
  | cons item rest inductionHypothesis =>
      obtain ⟨more, rfl⟩ := Nat.exists_eq_add_one.mpr (Nat.zero_lt_of_lt enough)
      rw [Stream'.Seq.ofList_cons, Stream'.Seq.cons_append, readItems_succ, readStep,
        Stream'.Seq.destruct_cons]
      cases item with
      | error message => exact ⟨_, rfl⟩
      | ok chunk =>
          by_cases exceeds : cap.toNat < buf.length + chunk.length
          · simp only [if_pos exceeds]
            exact ⟨_, rfl⟩
          · simp only [if_neg exceeds]
            apply inductionHypothesis _ _ (Nat.lt_of_succ_lt_succ enough)
            simpa using stops

variable {cap : UInt64} {response : UpstreamResponse}

theorem readCapped_of_declared (declared : ∀ length ∈ response.contentLength, length ≤ cap)
    (awaited : ℕ) : readCapped cap awaited response = readItems cap awaited response.body [] :=
  if_neg fun tooLong => any_lt_contentLength.mp tooLong declared

theorem readCapped_eq_ok_iff {awaited : ℕ} {bytes : List UInt8} :
    readCapped cap awaited response = some (.ok bytes) ↔
      (∀ length ∈ response.contentLength, length ≤ cap) ∧
      ∃ chunks : List (List UInt8), response.body = .ofList (chunks.map .ok) ∧
        chunks.length < awaited ∧ chunks.flatten.length ≤ cap.toNat ∧ bytes = chunks.flatten := by
  by_cases declared : ∀ length ∈ response.contentLength, length ≤ cap
  · rw [readCapped_of_declared declared, readItems_eq_ok_iff (Nat.zero_le _)]
    simp only [List.length_nil, Nat.zero_add, List.nil_append, and_iff_right declared]
  · rw [readCapped, if_pos (any_lt_contentLength.mpr declared)]
    apply iff_of_false
    · rintro ⟨⟩
    · exact fun within => declared within.1

/-- At most `isize::MAX` bytes, as in every allocation. -/
def Addressable (bytes : List UInt8) : Prop := bytes.length ≤ 2 ^ 63 - 1

theorem toNat_add_of_addressable {buf chunk : List UInt8} (held : Addressable buf)
    (arrived : Addressable chunk) :
    (UInt64.ofNat buf.length + UInt64.ofNat chunk.length).toNat = buf.length + chunk.length := by
  have sum : buf.length + chunk.length < 2 ^ 64 := by
    unfold Addressable at held arrived
    omega
  rw [← UInt64.ofNat_add, UInt64.toNat_ofNat_of_lt' sum]

/-- Neither too strict nor too lax, and no further than it has to. -/
theorem readCapped_exact (cap : UInt64) (response : UpstreamResponse) :
    (∀ awaited bytes, readCapped cap awaited response = some (.ok bytes) ↔
      (∀ length ∈ response.contentLength, length ≤ cap) ∧
      ∃ chunks : List (List UInt8), response.body = .ofList (chunks.map .ok) ∧
        chunks.length < awaited ∧ chunks.flatten.length ≤ cap.toNat ∧ bytes = chunks.flatten) ∧
    (∀ (items : List BodyItem) (after : Stream'.Seq BodyItem) (awaited : ℕ),
      response.body = (Stream'.Seq.ofList items).append after →
      (after = .nil ∨ ∃ message, .error message ∈ items) → items.length < awaited →
      ¬response.WithinCap cap → ∃ error, readCapped cap awaited response = some (.error error)) ∧
    (∀ n stream buf, Turned cap response.body n stream buf →
      buf.length ≤ cap.toNat ∧ ∃ chunks : List (List UInt8), chunks.length = n ∧
        response.body = (Stream'.Seq.ofList (chunks.map .ok)).append stream ∧
        buf = chunks.flatten) ∧
    (∀ (chunks : List (List UInt8)) (chunk : List UInt8) (after : Stream'.Seq BodyItem),
      response.body = (Stream'.Seq.ofList (chunks.map .ok)).append (.cons (.ok chunk) after) →
      chunks.flatten.length ≤ cap.toNat → cap.toNat < (chunks.flatten ++ chunk).length →
        readCapped cap (chunks.length + 1) response = some (.error (.overCap cap))) ∧
    ∀ n stream buf chunk, Turned cap response.body n stream buf → Addressable buf →
      Addressable chunk →
        (UInt64.ofNat buf.length + UInt64.ofNat chunk.length).toNat =
          buf.length + chunk.length := by
  refine ⟨fun awaited bytes => readCapped_eq_ok_iff, ?_, fun n stream buf => Turned.kept, ?_,
    fun n stream buf chunk _ => toNat_add_of_addressable⟩
  · intro items after awaited same stops enough tooMuch
    by_cases declared : ∀ length ∈ response.contentLength, length ≤ cap
    · obtain ⟨result, read⟩ := exists_readItems_eq cap stops [] enough
      rw [← same, ← readCapped_of_declared declared] at read
      cases result with
      | error error => exact ⟨error, read⟩
      | ok bytes => exact absurd ((readCapped_ok_iff read).mp ⟨bytes, rfl⟩) tooMuch
    · exact ⟨_, if_pos (any_lt_contentLength.mpr declared)⟩
  · intro chunks chunk after split fits exceeds
    by_cases declared : ∀ length ∈ response.contentLength, length ≤ cap
    · rw [readCapped_of_declared declared, (turned_of_fits split fits).readItems_eq 1,
        readItems_succ, readStep, Stream'.Seq.destruct_cons]
      rw [List.length_append] at exceeds
      simp only [if_pos exceeds]
    · exact if_pos (any_lt_contentLength.mpr declared)

end Sturnus
