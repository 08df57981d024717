import Sturnus.Foundation.Text

/-!
# Scheme and authority of an absolute URL

Only the split that decides which host a request reaches: the scheme ends at
the first `://`, the authority at the next `/`, `?` or `#`.
-/

namespace Foundation.Url

def separator : Text := "://".toList

/-- Cut at the first `://`. -/
def splitScheme : Text → Option (Text × Text)
  | [] => none
  | c :: rest =>
      if separator.isPrefixOf (c :: rest) then some ([], (c :: rest).drop separator.length)
      else (splitScheme rest).map fun (scheme, after) => (c :: scheme, after)

def endsAuthority (c : Char) : Bool := c == '/' || c == '?' || c == '#'

def scheme (url : Text) : Option Text := (splitScheme url).map Prod.fst

def authority (url : Text) : Text :=
  match splitScheme url with
  | some (_, after) => after.takeWhile fun c => !endsAuthority c
  | none => []

/-- What follows the authority: the path, query and fragment. -/
def afterAuthority (url : Text) : Text :=
  match splitScheme url with
  | some (_, after) => after.dropWhile fun c => !endsAuthority c
  | none => []

/-- The authority without its userinfo. -/
def hostAndPort (url : Text) : Text :=
  ((authority url).reverse.takeWhile (· != '@')).reverse

/-- Two URLs lead to the same host over the same scheme. -/
def SameOrigin (left right : Text) : Prop :=
  scheme left = scheme right ∧ authority left = authority right

instance (left right : Text) : Decidable (SameOrigin left right) :=
  inferInstanceAs (Decidable (_ ∧ _))

/-- The separator is here, or further on behind a character of the scheme. -/
theorem splitScheme_cons {c : Char} {rest scheme after : Text}
    (split : splitScheme (c :: rest) = some (scheme, after)) :
    (scheme = [] ∧ c :: rest = separator ++ after) ∨
      ∃ front, scheme = c :: front ∧ ¬separator <+: c :: rest ∧
        splitScheme rest = some (front, after) := by
  unfold splitScheme at split
  split at split
  next found =>
    obtain ⟨tail, equal⟩ := List.isPrefixOf_iff_prefix.mp found
    simp only [← equal, List.drop_left, Option.some.injEq, Prod.mk.injEq] at split
    exact .inl ⟨split.1.symm, split.2 ▸ equal.symm⟩
  next missed =>
    simp only [Option.map_eq_some_iff, Prod.mk.injEq, Prod.exists] at split
    obtain ⟨front, back, cut, rfl, rfl⟩ := split
    exact .inr ⟨front, rfl, fun found => missed (List.isPrefixOf_iff_prefix.mpr found), cut⟩

theorem splitScheme_eq {url scheme after : Text}
    (split : splitScheme url = some (scheme, after)) :
    url = scheme ++ separator ++ after := by
  induction url generalizing scheme with
  | nil => simp [splitScheme] at split
  | cons c rest inductionHypothesis =>
      rcases splitScheme_cons split with ⟨rfl, equal⟩ | ⟨front, rfl, -, cut⟩
      · exact equal
      · exact congrArg (c :: ·) (inductionHypothesis cut)

/-- The first `://` stays the first one when the text grows at its end. -/
theorem splitScheme_append {url scheme after : Text}
    (split : splitScheme url = some (scheme, after)) (suffix : Text) :
    splitScheme (url ++ suffix) = some (scheme, after ++ suffix) := by
  induction url generalizing scheme with
  | nil => simp [splitScheme] at split
  | cons c rest inductionHypothesis =>
      rcases splitScheme_cons split with ⟨rfl, equal⟩ | ⟨front, rfl, missed, cut⟩
      · simp [equal, separator, splitScheme]
      · have long : separator.length ≤ (c :: rest).length := by
          have shape := congrArg List.length (splitScheme_eq cut)
          simp only [List.length_append, List.length_cons] at shape ⊢
          omega
        have stillMissed : ¬separator <+: c :: (rest ++ suffix) := fun found =>
          missed (List.prefix_of_prefix_length_le found (List.prefix_append (c :: rest) suffix) long)
        simp [splitScheme, stillMissed, inductionHypothesis cut]

theorem split_authority {url scheme after : Text}
    (split : splitScheme url = some (scheme, after)) :
    after = authority url ++ afterAuthority url := by
  simp [authority, afterAuthority, split]

theorem authority_stops {url : Text} {c : Char} (inside : c ∈ authority url) :
    endsAuthority c = false := by
  unfold authority at inside
  split at inside
  · simpa using List.mem_takeWhile_imp inside
  · simp at inside

/-- A text that does not lengthen an authority in front of it. -/
def Delimited (rest : Text) : Prop := ∀ c ∈ rest.head?, endsAuthority c = true

theorem delimited_nil : Delimited [] := by simp [Delimited]

theorem delimited_cons {c : Char} {rest : Text} :
    Delimited (c :: rest) ↔ endsAuthority c = true := by
  simp [Delimited]

theorem delimited_afterAuthority (url : Text) : Delimited (afterAuthority url) := by
  unfold afterAuthority
  split
  next scheme after _ =>
      intro c first
      have stopped := List.head?_dropWhile_not (fun c => !endsAuthority c) after
      rw [Option.mem_def.mp first] at stopped
      simpa using stopped
  next => exact delimited_nil

/-- What follows an authority leaves it alone exactly when it is delimited. -/
theorem takeWhile_eq_iff_delimited {front : Text} (plain : ∀ c ∈ front, endsAuthority c = false)
    (rest : Text) :
    (front ++ rest).takeWhile (fun c => !endsAuthority c) = front ↔ Delimited rest := by
  rw [List.takeWhile_append_of_pos (by simpa using plain), List.append_right_eq_self]
  cases rest with
  | nil => simp [delimited_nil]
  | cons c rest => simp [delimited_cons, List.takeWhile_cons]

end Foundation.Url
