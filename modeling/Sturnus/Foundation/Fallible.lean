import Mathlib.Data.Seq.Basic

/-!
# Sequences that may fail

A finite or infinite sequence of results is a run of good items that ends, that
goes on forever, or that meets a first error with anything behind it.
-/

namespace Foundation

open Stream'

/-- A sequence, told by its good items up to the first error. -/
inductive Course (ε α : Type) where
  | ended (items : List α)
  | failed (items : List α) (error : ε) (after : Seq (Except ε α))
  | endless (items : Stream' α)

namespace Course

variable {ε α : Type}

def toSeq : Course ε α → Seq (Except ε α)
  | .ended items => .ofList (items.map .ok)
  | .failed items error after => (Seq.ofList (items.map .ok)).append (.cons (.error error) after)
  | .endless items => .ofStream (items.map .ok)

/-- One more good item in front. -/
def cons (item : α) : Course ε α → Course ε α
  | .ended items => .ended (item :: items)
  | .failed items error after => .failed (item :: items) error after
  | .endless items => .endless (.cons item items)

theorem toSeq_cons (item : α) (course : Course ε α) :
    (course.cons item).toSeq = .cons (.ok item) course.toSeq := by
  cases course with
  | ended items => exact Seq.ofList_cons _ _
  | failed items error after =>
      exact (congrArg (Seq.append · _) (Seq.ofList_cons _ _)).trans (Seq.cons_append _ _ _)
  | endless items =>
      rw [cons, toSeq, Stream'.map_cons, Seq.ofStream_cons]
      rfl

theorem ofStream_eq_cons (items : Stream' α) :
    Seq.ofStream items = .cons items.head (.ofStream items.tail) := by
  rw [← Seq.ofStream_cons, Stream'.eta]

theorem toSeq_endless (items : Stream' α) :
    (endless items : Course ε α).toSeq =
      .cons (.ok items.head) (endless items.tail : Course ε α).toSeq := by
  rw [← toSeq_cons, cons, Stream'.eta]

/-- A position that holds no good item is behind an end or a first error. -/
theorem exists_of_not_ok {stream : Seq (Except ε α)} {n : ℕ}
    (bad : ∀ item, stream.get? n ≠ some (.ok item)) : ∃ course : Course ε α,
      stream = course.toSeq := by
  induction n generalizing stream with
  | zero =>
      cases stream with
      | nil => exact ⟨.ended [], Seq.ofList_nil.symm⟩
      | cons result rest =>
          cases result with
          | ok item => exact absurd (Seq.get?_cons_zero _ _) (bad item)
          | error error =>
              refine ⟨.failed [] error rest, ?_⟩
              exact (Seq.nil_append _).symm.trans (congrArg (Seq.append · _) Seq.ofList_nil.symm)
  | succ n inductionHypothesis =>
      cases stream with
      | nil => exact ⟨.ended [], Seq.ofList_nil.symm⟩
      | cons result rest =>
          cases result with
          | ok item =>
              have badRest : ∀ item, rest.get? n ≠ some (.ok item) := by
                simpa only [Seq.get?_cons_succ] using bad
              obtain ⟨course, rfl⟩ := inductionHypothesis badRest
              exact ⟨course.cons item, (toSeq_cons item course).symm⟩
          | error error =>
              refine ⟨.failed [] error rest, ?_⟩
              exact (Seq.nil_append _).symm.trans (congrArg (Seq.append · _) Seq.ofList_nil.symm)

theorem exists_toSeq_eq (stream : Seq (Except ε α)) : ∃ course : Course ε α,
    stream = course.toSeq := by
  by_cases good : ∀ n, ∃ item, stream.get? n = some (.ok item)
  · choose items found using good
    exact ⟨.endless items, Seq.ext found⟩
  · push Not at good
    obtain ⟨n, bad⟩ := good
    exact exists_of_not_ok bad

end Course

end Foundation
