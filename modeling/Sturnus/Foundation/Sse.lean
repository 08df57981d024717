import Sturnus.Foundation.Text

/-!
# Server-sent events

A decoder that reads a stream byte by byte.  A line ends at a line feed, at a
carriage return, or at both.  The `data` fields of an event are joined by line
feeds, a blank line completes the event, and whatever is incomplete at the end
of the stream is dropped.
-/

namespace Foundation.Sse

def lineFeed : UInt8 := 10

def carriageReturn : UInt8 := 13

def colon : UInt8 := 58

def space : UInt8 := 32

def dataName : List UInt8 := Text.bytes "data".toList

/-- The name of a field and what follows its colon.  A line without a colon is a name. -/
def field : List UInt8 → List UInt8 × List UInt8
  | [] => ([], [])
  | byte :: rest =>
      if byte = colon then ([], rest) else (byte :: (field rest).1, (field rest).2)

/-- One space behind the colon does not belong to the value. -/
def dropSpace : List UInt8 → List UInt8
  | [] => []
  | byte :: rest => if byte = space then rest else byte :: rest

/-- The value of a line that is a `data` field. -/
def dataOf (line : List UInt8) : Option (List UInt8) :=
  if (field line).1 = dataName then some (dropSpace (field line).2) else none

structure Decoder where
  /-- The unfinished line. -/
  line : List UInt8
  /-- The `data` fields since the last blank line. -/
  data : List (List UInt8)
  /-- A line feed that follows belongs to the line end already read. -/
  afterReturn : Bool
  /-- The data of the completed events. -/
  events : List (List UInt8)

namespace Decoder

def start : Decoder := ⟨[], [], false, []⟩

def joined : List (List UInt8) → List UInt8
  | [] => []
  | [value] => value
  | value :: others => value ++ lineFeed :: joined others

/-- What a blank line completes; an event without data is none. -/
def completed (fields : List (List UInt8)) : List (List UInt8) :=
  if fields = [] then [] else [joined fields]

def dispatch (decoder : Decoder) : Decoder :=
  { decoder with data := [], events := decoder.events ++ completed decoder.data }

def endLine (decoder : Decoder) : Decoder :=
  if decoder.line = [] then decoder.dispatch
  else { decoder with line := [], data := decoder.data ++ (dataOf decoder.line).toList }

def push (decoder : Decoder) (byte : UInt8) : Decoder :=
  if byte = lineFeed then
    if decoder.afterReturn then { decoder with afterReturn := false } else decoder.endLine
  else if byte = carriageReturn then { decoder.endLine with afterReturn := true }
  else { decoder with line := decoder.line ++ [byte], afterReturn := false }

def feed (decoder : Decoder) (bytes : List UInt8) : Decoder := bytes.foldl push decoder

end Decoder

/-- The data of the events of a whole stream. -/
def decode (bytes : List UInt8) : List (List UInt8) := (Decoder.start.feed bytes).events

/-- A payload in one line, as an event of its own. -/
def dataEvent (payload : List UInt8) : List UInt8 :=
  dataName ++ colon :: space :: payload ++ [lineFeed, lineFeed]

/-- No line ends inside. -/
def SingleLine (bytes : List UInt8) : Prop :=
  ∀ byte ∈ bytes, byte ≠ lineFeed ∧ byte ≠ carriageReturn

instance (bytes : List UInt8) : Decidable (SingleLine bytes) :=
  List.decidableBAll (fun byte => byte ≠ lineFeed ∧ byte ≠ carriageReturn) bytes

section Fields

variable {line : List UInt8}

theorem field_append_of_mem (separated : colon ∈ line) (more : List UInt8) :
    field (line ++ more) = ((field line).1, (field line).2 ++ more) := by
  induction line with
  | nil => cases separated
  | cons byte rest inductionHypothesis =>
      by_cases isColon : byte = colon
      · simp only [List.cons_append, field, if_pos isColon]
      · have inRest : colon ∈ rest :=
          (List.mem_cons.mp separated).resolve_left (Ne.symm isColon)
        simp only [List.cons_append, field, if_neg isColon, inductionHypothesis inRest]

theorem field_append_of_not_mem (unseparated : colon ∉ line) (more : List UInt8) :
    field (line ++ more) = (line ++ (field more).1, (field more).2) := by
  induction line with
  | nil => rfl
  | cons byte rest inductionHypothesis =>
      obtain ⟨other, inRest⟩ := not_or.mp (mt List.mem_cons.mpr unseparated)
      simp only [List.cons_append, field, if_neg (Ne.symm other), inductionHypothesis inRest]

theorem field_data (payload : List UInt8) :
    field (dataName ++ colon :: space :: payload) = (dataName, space :: payload) := by
  have named : colon ∉ dataName := by decide
  rw [field_append_of_not_mem named]
  simp [field]

theorem length_le_dropSpace (bytes : List UInt8) : bytes.length ≤ (dropSpace bytes).length + 1 := by
  cases bytes with
  | nil => exact Nat.zero_le _
  | cons byte rest =>
      simp only [dropSpace, List.length_cons]
      split
      next => exact Nat.le_refl _
      next => exact Nat.le_succ _

/-- What is appended to a `data` field belongs to its value, up to a space. -/
theorem dataOf_append {value more : List UInt8} (separated : colon ∈ line)
    (found : dataOf (line ++ more) = some value) : more.length ≤ value.length + 1 := by
  rw [dataOf, field_append_of_mem separated] at found
  split at found
  next =>
    cases found
    have kept := length_le_dropSpace ((field line).2 ++ more)
    rw [List.length_append] at kept
    exact (Nat.le_add_left _ _).trans kept
  next => cases found

theorem dataOf_append_isSome (separated : colon ∈ line) (more : List UInt8) :
    (dataOf (line ++ more)).isSome = true ↔ (field line).1 = dataName := by
  rw [dataOf, field_append_of_mem separated]
  split
  next same => exact iff_of_true rfl same
  next other => exact iff_of_false (by simp) other

end Fields

namespace Decoder

variable (decoder : Decoder)

theorem joined_concat (first value : List UInt8) (others : List (List UInt8)) :
    joined (first :: others ++ [value]) = joined (first :: others) ++ lineFeed :: value := by
  induction others generalizing first with
  | nil => rfl
  | cons second rest inductionHypothesis =>
      have unfolded (fields : List (List UInt8)) :
          joined (first :: second :: fields) = first ++ lineFeed :: joined (second :: fields) := rfl
      rw [List.cons_append, List.cons_append, unfolded, ← List.cons_append, inductionHypothesis,
        unfolded, List.append_assoc, List.cons_append]

theorem feed_append (first second : List UInt8) :
    decoder.feed (first ++ second) = (decoder.feed first).feed second :=
  List.foldl_append

/-- Inside a line the bytes are only collected. -/
theorem feed_singleLine {text : List UInt8} (single : SingleLine text) (some : text ≠ []) :
    decoder.feed text = { decoder with line := decoder.line ++ text, afterReturn := false } := by
  induction text generalizing decoder with
  | nil => exact absurd rfl some
  | cons byte rest inductionHypothesis =>
      obtain ⟨noLineFeed, noReturn⟩ := single byte List.mem_cons_self
      have pushed : decoder.push byte =
          { decoder with line := decoder.line ++ [byte], afterReturn := false } := by
        rw [push, if_neg noLineFeed, if_neg noReturn]
      have first : decoder.feed (byte :: rest) = (decoder.push byte).feed rest := rfl
      rw [first, pushed]
      by_cases last : rest = []
      · rw [last]
        rfl
      · rw [inductionHypothesis _ (fun other member => single other (List.mem_cons_of_mem _ member))
          last]
        simp only [List.append_assoc, List.singleton_append]

/-- A one-line event completes whatever the line it ends and the data it finds make of it. -/
theorem events_feed_dataEvent {payload : List UInt8} (single : SingleLine payload) :
    (decoder.feed (dataEvent payload)).events = decoder.events ++
      completed (decoder.data ++
        (dataOf (decoder.line ++ (dataName ++ colon :: space :: payload))).toList) := by
  have line : SingleLine (dataName ++ colon :: space :: payload) := by
    intro byte member
    have named : SingleLine (dataName ++ [colon, space]) := by decide
    rcases List.mem_append.mp (show byte ∈ (dataName ++ [colon, space]) ++ payload by
      simpa using member) with inName | inPayload
    · exact named byte inName
    · exact single byte inPayload
  have whole : decoder.line ++ (dataName ++ colon :: space :: payload) ≠ [] := by simp
  rw [dataEvent, feed_append, feed_singleLine decoder line (by simp)]
  simp only [feed, List.foldl_cons, List.foldl_nil, push, if_true, Bool.false_eq_true, if_false,
    endLine, if_neg whole, dispatch]

/-- No line has begun and no data waits. -/
structure Idle (decoder : Decoder) : Prop where
  line : decoder.line = []
  data : decoder.data = []

/-- The unfinished line is a `data` field. -/
def InData (decoder : Decoder) : Prop :=
  colon ∈ decoder.line ∧ (field decoder.line).1 = dataName

/-- The data that waits is the payload already, and the unfinished line will not add to it. -/
structure Repeats (decoder : Decoder) (payload : List UInt8) : Prop where
  line : decoder.line ≠ []
  other : ¬decoder.InData
  data : decoder.data ≠ []
  same : joined decoder.data = payload

variable {decoder}

theorem dataOf_unfinished (begun : decoder.line ≠ []) (other : ¬decoder.InData)
    (payload : List UInt8) :
    dataOf (decoder.line ++ (dataName ++ colon :: space :: payload)) = none := by
  by_cases separated : colon ∈ decoder.line
  · rw [← Option.not_isSome_iff_eq_none, dataOf_append_isSome separated]
    exact fun named => other ⟨separated, named⟩
  · rw [dataOf, field_append_of_not_mem separated, field_data]
    apply if_neg
    intro same
    exact begun (List.append_left_eq_self.mp same)

theorem completed_eq_singleton {fields : List (List UInt8)} {payload : List UInt8} :
    completed fields = [payload] ↔ fields ≠ [] ∧ joined fields = payload := by
  unfold completed
  split
  next empty => simp [empty]
  next filled => simp [filled]

/-- The data of a completed event is at least as long as its last field. -/
theorem joined_ne {fields : List (List UInt8)} {value payload : List UInt8}
    (longer : fields = [] → value ≠ payload) (long : payload.length ≤ value.length) :
    joined (fields ++ [value]) ≠ payload := by
  cases fields with
  | nil => exact longer rfl
  | cons first others =>
      rw [joined_concat]
      intro same
      have lengths := congrArg List.length same
      simp only [List.length_append, List.length_cons] at lengths
      omega

/-- An appended one-line event arrives as one event with its payload exactly in these two
states of the decoder. -/
theorem events_feed_dataEvent_iff {payload : List UInt8} (single : SingleLine payload) :
    (decoder.feed (dataEvent payload)).events = decoder.events ++ [payload] ↔
      decoder.Idle ∨ decoder.Repeats payload := by
  rw [events_feed_dataEvent decoder single, List.append_cancel_left_eq, completed_eq_singleton]
  by_cases begun : decoder.line = []
  · have value : dataOf (decoder.line ++ (dataName ++ colon :: space :: payload)) =
        some payload := by
      rw [begun, List.nil_append, dataOf, field_data]
      rfl
    have unrepeated : ¬decoder.Repeats payload := fun repeats => repeats.line begun
    rw [value, or_iff_left unrepeated]
    constructor
    · rintro ⟨-, same⟩
      refine ⟨begun, ?_⟩
      by_contra waiting
      exact joined_ne (fun empty => absurd empty waiting) (Nat.le_refl _) same
    · intro idle
      rw [idle.data]
      exact ⟨by simp, rfl⟩
  · have busy : ¬decoder.Idle := fun idle => begun idle.line
    rw [or_iff_right busy]
    by_cases inData : decoder.InData
    · have unrepeated : ¬decoder.Repeats payload := fun repeats => repeats.other inData
      obtain ⟨value, found⟩ := Option.isSome_iff_exists.mp
        ((dataOf_append_isSome inData.1 (dataName ++ colon :: space :: payload)).mpr inData.2)
      have long := dataOf_append inData.1 found
      have named : dataName.length = 4 := rfl
      simp only [List.length_append, List.length_cons, named] at long
      rw [found, iff_false_right unrepeated]
      rintro ⟨-, same⟩
      refine joined_ne (fun _ equal => ?_) (by omega) same
      rw [equal] at long
      omega
    · rw [dataOf_unfinished begun inData, Option.toList_none, List.append_nil]
      exact ⟨fun waiting => ⟨begun, inData, waiting.1, waiting.2⟩,
        fun repeats => ⟨repeats.data, repeats.same⟩⟩

end Decoder

end Foundation.Sse
