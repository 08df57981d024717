import Sturnus.Foundation.HeaderMap
import Sturnus.Server.Handler

/-!
# The headers of a proxied response

The upstream's headers are relayed value by value, less those that belong to the
connection or the origin, and the two headers that name the candidate replace
whatever the upstream sent under their names.
-/

namespace Sturnus

open Foundation Foundation.Http

/-- A name whose values are not relayed. -/
def isStripped (name : HeaderName) : Bool :=
  isHopByHop name || responseOnlyStrip.contains name

theorem sanitizeResponseHeaders_eq (upstream : HeaderMap) :
    sanitizeResponseHeaders upstream = .appendKept isStripped ∅ upstream.entries := rfl

theorem getAll_sanitizeResponseHeaders (upstream : HeaderMap) (name : HeaderName) :
    (sanitizeResponseHeaders upstream).getAll name =
      if isStripped name then [] else upstream.getAll name := by
  rw [sanitizeResponseHeaders_eq, HeaderMap.getAll_appendKept _ _ upstream.nodupKeys]
  rfl

/-- `headers.extend` on the headers of a new response, and the two inserts behind it. -/
def responseHeaders (candidate : ResolvedCandidate) (answered : HeaderMap) : HeaderMap :=
  let headers := HeaderMap.extend ∅ none answered.intoIter
  let headers := (headers.insert providerNameHeader candidate.providerHeader).1
  (headers.insert sessionAffinityHeader candidate.affinityHeader).1

theorem getAll_responseHeaders (candidate : ResolvedCandidate) (answered : HeaderMap)
    (name : HeaderName) :
    (responseHeaders candidate answered).getAll name =
      if name = sessionAffinityHeader then [candidate.affinityHeader]
      else if name = providerNameHeader then [candidate.providerHeader]
      else answered.getAll name := by
  rw [responseHeaders, HeaderMap.getAll_insert, HeaderMap.getAll_insert,
    HeaderMap.getAll_extend_empty]

/-- Extending nothing is no more than taking the map over. -/
theorem getAll_response {F : Type} (route : Route) {completion : Completion}
    {answer : ProxyResult} (answered : completion.result = .ok answer) (name : HeaderName) :
    (route.response completion : Response F).headers.getAll name =
      (responseHeaders route.candidate answer.headers).getAll name := by
  rw [getAll_responseHeaders, Route.response, answered]
  exact (HeaderMap.getAll_insert _ _ _ _).trans (if_congr Iff.rfl rfl
    (HeaderMap.getAll_insert _ _ _ _))

theorem isStripped_iff {name : HeaderName} :
    isStripped name = true ↔ isHopByHop name = true ∨ name ∈ responseOnlyStrip := by
  rw [isStripped, Bool.or_eq_true, List.contains_iff_mem]

/-- The headers Sturnus sets are none of those it strips. -/
theorem isStripped_set : isStripped providerNameHeader = false ∧
    isStripped sessionAffinityHeader = false ∧ providerNameHeader ≠ sessionAffinityHeader := by
  decide

/-- A sanitized map is listed again as it is. -/
theorem sanitizeResponseHeaders_twice (upstream : HeaderMap) :
    (sanitizeResponseHeaders (sanitizeResponseHeaders upstream)).entries.Perm
      (sanitizeResponseHeaders upstream).entries := by
  apply HeaderMap.perm_of_getAll
  · rw [sanitizeResponseHeaders_eq]
    exact HeaderMap.filled_appendKept isStripped
  · rw [sanitizeResponseHeaders_eq]
    exact HeaderMap.filled_appendKept isStripped
  · intro name
    rw [getAll_sanitizeResponseHeaders, getAll_sanitizeResponseHeaders]
    split <;> rfl

/-- What the client sees of the upstream's headers. -/
theorem response_headers_relayed (upstream : HeaderMap) (candidate : ResolvedCandidate) :
    let headers := responseHeaders candidate (sanitizeResponseHeaders upstream)
    (∀ name, isHopByHop name = false → name ∉ responseOnlyStrip → name ≠ providerNameHeader →
      name ≠ sessionAffinityHeader → headers.getAll name = upstream.getAll name) ∧
    (∀ name, isHopByHop name = true ∨ name ∈ responseOnlyStrip → headers.getAll name = []) ∧
    headers.getAll providerNameHeader = [candidate.providerHeader] ∧
    headers.getAll sessionAffinityHeader = [candidate.affinityHeader] ∧
    (sanitizeResponseHeaders (sanitizeResponseHeaders upstream)).entries.Perm
      (sanitizeResponseHeaders upstream).entries ∧
    ∀ (F : Type) (route : Route) (completion : Completion) (answer : ProxyResult),
      route.candidate = candidate → completion.result = .ok answer →
      answer.headers = sanitizeResponseHeaders upstream → ∀ name,
        (route.response completion : Response F).headers.getAll name = headers.getAll name := by
  obtain ⟨providerKept, affinityKept, different⟩ := isStripped_set
  refine ⟨?_, ?_, ?_, ?_, sanitizeResponseHeaders_twice upstream, ?_⟩
  · intro name endToEnd notOrigin notProvider notAffinity
    have kept : isStripped name ≠ true := fun stripped =>
      (isStripped_iff.mp stripped).elim (Bool.eq_false_iff.mp endToEnd) notOrigin
    rw [getAll_responseHeaders, if_neg notAffinity, if_neg notProvider,
      getAll_sanitizeResponseHeaders, if_neg kept]
  · intro name dropped
    have stripped : isStripped name = true := isStripped_iff.mpr dropped
    have notAffinity : name ≠ sessionAffinityHeader := by
      rintro rfl
      exact Bool.false_ne_true (affinityKept.symm.trans stripped)
    have notProvider : name ≠ providerNameHeader := by
      rintro rfl
      exact Bool.false_ne_true (providerKept.symm.trans stripped)
    rw [getAll_responseHeaders, if_neg notAffinity, if_neg notProvider,
      getAll_sanitizeResponseHeaders, if_pos stripped]
  · rw [getAll_responseHeaders, if_neg different, if_pos rfl]
  · rw [getAll_responseHeaders, if_pos rfl]
  · rintro F route completion answer rfl answered sanitized name
    rw [getAll_response route answered, sanitized]

end Sturnus
