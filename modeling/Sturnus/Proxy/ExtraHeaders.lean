import Sturnus.Config

/-!
# Which `headers` tables can be sent

Resolving a table stops at the first fault, in an arbitrary order of its
entries.  Whether there is a fault, and the header map if there is none, are
properties of the table: every entry parses to a name that is not reserved,
and no two entries to the same name.
-/

namespace Sturnus

open Foundation Foundation.Http

/-- Every name and value is legal, no name is reserved, and no two keys differ only in
their case. -/
structure HeadersLegal (headers : HashMap Text Text) : Prop where
  names : ∀ entry ∈ headers.entries, (HeaderName.tryFrom entry.1).isSome = true
  unreserved : ∀ entry ∈ headers.entries, ∀ name, isReservedRequestHeader name = true →
    entry.1.map Char.toLower ≠ name.text
  distinct : ∀ first ∈ headers.entries, ∀ second ∈ headers.entries,
    first.1.map Char.toLower = second.1.map Char.toLower → first.1 = second.1
  values : ∀ entry ∈ headers.entries, (HeaderValue.tryFrom entry.2).isSome = true

/-- What an entry of the table is parsed to. -/
structure ParsesTo (entry : Σ _ : Text, Text) (parsed : HeaderName × HeaderValue) : Prop where
  name : HeaderName.tryFrom entry.1 = some parsed.1
  unreserved : isReservedRequestHeader parsed.1 = false
  value : HeaderValue.tryFrom entry.2 = some parsed.2

theorem tryFrom_text {name : Text} {parsed : HeaderName}
    (legal : HeaderName.tryFrom name = some parsed) : parsed.text = name.map Char.toLower := by
  simp only [HeaderName.tryFrom] at legal
  split at legal
  · rw [← Option.some.inj legal]
  · cases legal

theorem HeaderName.eq_of_text {first second : HeaderName} (same : first.text = second.text) :
    first = second := by
  cases first
  cases second
  simpa using same

namespace ProviderConfig

theorem addHeader_eq_ok {map after : HeaderMap} {name value : Text} :
    addHeader map name value = .ok after ↔
      ∃ parsed, ParsesTo ⟨name, value⟩ parsed ∧ parsed.1 ∉ map ∧
        after = AList.insert parsed.1 [parsed.2] map := by
  simp only [addHeader, bind_eq_ok, okOr_eq_ok, require_eq_ok, pure, Except.pure, Except.ok.injEq]
  constructor
  · rintro ⟨header, legalName, _, free, content, legalValue, _, fresh, rfl⟩
    refine ⟨(header, content), ⟨legalName, by simpa using free, legalValue⟩, ?_, rfl⟩
    simpa [HeaderMap.insert, AList.lookup_eq_none] using fresh
  · rintro ⟨⟨header, content⟩, ⟨legalName, free, legalValue⟩, fresh, rfl⟩
    refine ⟨header, legalName, (), by simpa using free, content, legalValue, (), ?_, rfl⟩
    simpa [HeaderMap.insert, AList.lookup_eq_none] using fresh

/-- The map that holds exactly the given headers, in the order they were added. -/
def headerMapOf (parsed : List (HeaderName × HeaderValue)) (map : HeaderMap) : HeaderMap :=
  parsed.foldl (fun map header => AList.insert header.1 [header.2] map) map

theorem notMem_insert_of_distinct {first : HeaderName × HeaderValue}
    {rest : List (HeaderName × HeaderValue)} {map : HeaderMap}
    (distinct : ((first :: rest).map Prod.fst).Nodup)
    (notBefore : ∀ header ∈ first :: rest, header.1 ∉ map) :
    ∀ header ∈ rest, header.1 ∉ AList.insert first.1 [first.2] map := by
  intro header member inserted
  rcases (AList.mem_insert _).mp inserted with same | old
  · exact (List.nodup_cons.mp distinct).1 (same ▸ List.mem_map_of_mem member)
  · exact notBefore header (List.mem_cons_of_mem _ member) old

theorem foldlM_addHeader_eq_ok {entries : List (Σ _ : Text, Text)} {map after : HeaderMap} :
    entries.foldlM (fun map entry => addHeader map entry.1 entry.2) map = .ok after ↔
      ∃ parsed, List.Forall₂ ParsesTo entries parsed ∧ (parsed.map Prod.fst).Nodup ∧
        (∀ header ∈ parsed, header.1 ∉ map) ∧ after = headerMapOf parsed map := by
  induction entries generalizing map with
  | nil => simp [headerMapOf, pure, Except.pure, eq_comm]
  | cons entry rest inductionHypothesis =>
      simp only [List.foldlM_cons, bind_eq_ok, addHeader_eq_ok, inductionHypothesis]
      constructor
      · rintro ⟨_, ⟨first, parses, fresh, rfl⟩, others, parsesAll, distinct, notBefore, rfl⟩
        refine ⟨first :: others, .cons parses parsesAll, ?_, ?_, rfl⟩
        · refine List.nodup_cons.mpr ⟨?_, distinct⟩
          intro repeated
          obtain ⟨other, member, same⟩ := List.mem_map.mp repeated
          exact notBefore other member ((AList.mem_insert _).mpr (.inl same))
        · intro header member
          rcases List.mem_cons.mp member with rfl | inside
          · exact fresh
          · exact fun old => notBefore header inside ((AList.mem_insert _).mpr (.inr old))
      · rintro ⟨parsed, parsesAll, distinct, notBefore, rfl⟩
        cases parsesAll with
        | @cons _ first _ others parses parsesRest =>
            exact ⟨_, ⟨first, parses, notBefore first List.mem_cons_self, rfl⟩, others, parsesRest,
              (List.nodup_cons.mp distinct).2, notMem_insert_of_distinct distinct notBefore, rfl⟩

theorem entries_headerMapOf {parsed : List (HeaderName × HeaderValue)} {map : HeaderMap}
    (distinct : (parsed.map Prod.fst).Nodup) (notBefore : ∀ header ∈ parsed, header.1 ∉ map) :
    (headerMapOf parsed map).entries =
      (parsed.map fun header =>
        (⟨header.1, [header.2]⟩ : Σ _ : HeaderName, List HeaderValue)).reverse ++ map.entries := by
  induction parsed generalizing map with
  | nil => rfl
  | cons first rest inductionHypothesis =>
      have fresh : first.1 ∉ map := notBefore first List.mem_cons_self
      have stillFresh := notMem_insert_of_distinct distinct notBefore
      rw [headerMapOf, List.foldl_cons, ← headerMapOf,
        inductionHypothesis (List.nodup_cons.mp distinct).2 stillFresh,
        AList.entries_insert_of_notMem fresh]
      simp

/-- A table resolves exactly to the headers its entries parse to. -/
theorem resolvedHeaders_eq_ok {provider : ProviderConfig} {headers : HeaderMap} :
    provider.resolvedHeaders = .ok headers ↔
      ∃ parsed, List.Forall₂ ParsesTo provider.headers.entries parsed ∧
        (parsed.map Prod.fst).Nodup ∧ headers = headerMapOf parsed ∅ := by
  rw [resolvedHeaders, foldlM_addHeader_eq_ok]
  simp

/-- Names are compared as their keys are, ignoring case. -/
theorem map_lower_eq {entries : List (Σ _ : Text, Text)} {parsed : List (HeaderName × HeaderValue)}
    (parses : List.Forall₂ ParsesTo entries parsed) :
    entries.map (fun entry => entry.1.map Char.toLower) =
      parsed.map fun header => header.1.text := by
  induction parses with
  | nil => rfl
  | cons first _ inductionHypothesis =>
      rw [List.map_cons, List.map_cons, inductionHypothesis, tryFrom_text first.name]

theorem nodup_names_iff {entries : List (Σ _ : Text, Text)}
    {parsed : List (HeaderName × HeaderValue)} (parses : List.Forall₂ ParsesTo entries parsed) :
    (parsed.map Prod.fst).Nodup ↔
      (entries.map fun entry => entry.1.map Char.toLower).Nodup := by
  have texts : parsed.map (fun header => header.1.text) =
      (parsed.map Prod.fst).map HeaderName.text := by simp
  rw [map_lower_eq parses, texts]
  exact (List.nodup_map_iff fun _ _ => HeaderName.eq_of_text).symm

/-- A table can be sent exactly if it is legal; the order of its entries plays no part. -/
theorem resolvedHeaders_ok_iff (provider : ProviderConfig) :
    (∃ headers, provider.resolvedHeaders = .ok headers) ↔ HeadersLegal provider.headers := by
  constructor
  · rintro ⟨headers, resolved⟩
    obtain ⟨parsed, parses, distinct, -⟩ := resolvedHeaders_eq_ok.mp resolved
    refine ⟨?_, ?_, ?_, ?_⟩
    · intro entry member
      obtain ⟨header, -, parse⟩ := exists_related parses member
      rw [parse.name, Option.isSome]
    · intro entry member name reserved same
      obtain ⟨header, -, parse⟩ := exists_related parses member
      have equal : header.1 = name := HeaderName.eq_of_text ((tryFrom_text parse.name).trans same)
      have free := parse.unreserved
      rw [equal, reserved] at free
      cases free
    · intro first inFirst second inSecond same
      have injective := List.inj_on_of_nodup_map ((nodup_names_iff parses).mp distinct)
      rw [injective inFirst inSecond same]
    · intro entry member
      obtain ⟨header, -, parse⟩ := exists_related parses member
      rw [parse.value, Option.isSome]
  · intro legal
    have each : ∀ entry ∈ provider.headers.entries, ∃ header, ParsesTo entry header := by
      intro entry member
      obtain ⟨name, parsedName⟩ := Option.isSome_iff_exists.mp (legal.names entry member)
      obtain ⟨value, parsedValue⟩ := Option.isSome_iff_exists.mp (legal.values entry member)
      refine ⟨(name, value), parsedName, ?_, parsedValue⟩
      rw [← Bool.not_eq_true]
      intro reserved
      exact legal.unreserved entry member name reserved (tryFrom_text parsedName).symm
    obtain ⟨parsed, parses⟩ := exists_forall₂ each
    refine ⟨_, resolvedHeaders_eq_ok.mpr ⟨parsed, parses, ?_, rfl⟩⟩
    apply (nodup_names_iff parses).mpr
    apply List.Nodup.map_on _ provider.headers.nodupKeys.nodup
    intro first inFirst second inSecond same
    exact provider.headers.nodupKeys.eq_of_fst_eq inFirst inSecond
      (legal.distinct first inFirst second inSecond same)

/-- Another order of the same table resolves to the same header map. -/
theorem resolvedHeaders_perm {provider reordered : ProviderConfig}
    (perm : reordered.headers.entries.Perm provider.headers.entries) {headers : HeaderMap}
    (resolved : provider.resolvedHeaders = .ok headers) :
    ∃ same : HeaderMap, reordered.resolvedHeaders = .ok same ∧
      same.entries.Perm headers.entries := by
  obtain ⟨parsed, parses, distinct, rfl⟩ := resolvedHeaders_eq_ok.mp resolved
  obtain ⟨others, parsesOthers, permParsed⟩ := List.perm_comp_forall₂ perm parses
  have othersDistinct : (others.map Prod.fst).Nodup :=
    (permParsed.map Prod.fst).nodup_iff.mpr distinct
  refine ⟨_, resolvedHeaders_eq_ok.mpr ⟨others, parsesOthers, othersDistinct, rfl⟩, ?_⟩
  rw [entries_headerMapOf othersDistinct (by simp), entries_headerMapOf distinct (by simp)]
  simp only [AList.empty_entries, List.append_nil]
  exact (List.reverse_perm _).trans ((permParsed.map _).trans (List.reverse_perm _).symm)

/-- Which of two faults is reported does depend on the order. -/
example : ∃ provider reordered : ProviderConfig,
    reordered.headers.entries.Perm provider.headers.entries ∧
    provider.resolvedHeaders = .error (.invalidName "bad name".toList) ∧
    reordered.resolvedHeaders = .error (.reserved (staticName "host")) :=
  ⟨{ headers := ⟨[⟨"bad name".toList, "x".toList⟩, ⟨"Host".toList, "y".toList⟩],
      show (List.keys _).Nodup by decide⟩ },
    { headers := ⟨[⟨"Host".toList, "y".toList⟩, ⟨"bad name".toList, "x".toList⟩],
      show (List.keys _).Nodup by decide⟩ },
    .swap _ _ _, rfl, rfl⟩

/-- A resolved name is not reserved and has one value. -/
theorem mem_resolvedHeaders {provider : ProviderConfig} {headers : HeaderMap}
    (resolved : provider.resolvedHeaders = .ok headers) :
    ∀ entry ∈ headers.entries, isReservedRequestHeader entry.1 = false ∧
      ∃ value, entry.2 = [value] := by
  obtain ⟨parsed, parses, distinct, rfl⟩ := resolvedHeaders_eq_ok.mp resolved
  intro entry member
  rw [entries_headerMapOf distinct (by simp)] at member
  simp only [AList.empty_entries, List.append_nil, List.mem_reverse, List.mem_map] at member
  obtain ⟨header, inside, rfl⟩ := member
  obtain ⟨_, -, parse⟩ := exists_related parses.flip inside
  exact ⟨parse.unreserved, header.2, rfl⟩

end ProviderConfig

end Sturnus
