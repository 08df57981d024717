import Sturnus.Foundation.Concurrent.Exclusion
import Sturnus.Foundation.OnceCell
import Sturnus.Foundation.Text

/-!
# GCP tokens

Any number of requests ask for a token at once.  The first to find no provider
detects one while the others wait; if it fails, is too slow or is dropped, one of
them tries again.  The cell of the provider is any that can be initialised once.
-/

namespace Sturnus

open Foundation Foundation.Concurrent

/-- Cap on each network step, in seconds. -/
def authTimeout : ℕ := 5

/-- How an awaited network step has ended; `none` when it took too long. -/
abbrev Timed (Value : Type) := Option (Except Text Value)

/-- `tokio::time::timeout` around a step, with the message of its elapsing. -/
def Timed.result {Value : Type} (step : String) : Timed Value → Except Text Value
  | some result => result
  | none => .error (step.toList ++ " did not complete within ".toList ++
      (toString authTimeout).toList ++ "s".toList)

def detectionResult {Provider : Type} (outcome : Timed Provider) : Except Text Provider :=
  outcome.result "GCP credential detection"

def requestResult (outcome : Timed Text) : Except Text Text :=
  outcome.result "GCP token request"

/-- Where a call of `get_token` stands. -/
inductive TokenCall (Provider : Type) where
  /-- In front of the cell. -/
  | entering
  | detecting
  | fetching (provider : Provider)
  | returned (result : Except Text Text)
  /-- The request that asked was dropped. -/
  | dropped

inductive TokenEvent (Provider : Type) where
  | started
  | resolved (provider : Provider)
  | failed
  | fetched (provider : Provider) (outcome : Timed Text)

variable {Cell Provider : Type}

/-- What a call can do, from one state of the cell to another. -/
inductive TokenMoves : OnceState Provider → TokenCall Provider → OnceState Provider →
    TokenCall Provider → List (TokenEvent Provider) → Prop where
  | find (provider : Provider) :
      TokenMoves (.initialized provider) .entering (.initialized provider) (.fetching provider) []
  | start : TokenMoves .empty .entering .initializing .detecting [.started]
  | leave (state : OnceState Provider) : TokenMoves state .entering state .dropped []
  | resolve (provider : Provider) : TokenMoves .initializing .detecting (.initialized provider)
      (.fetching provider) [.resolved provider]
  | fail (outcome : Timed Provider) (error : Text) : detectionResult outcome = .error error →
      TokenMoves .initializing .detecting .empty (.returned (.error error)) [.failed]
  | abandon : TokenMoves .initializing .detecting .empty .dropped [.failed]
  | fetch (state : OnceState Provider) (provider : Provider) (outcome : Timed Text) :
      TokenMoves state (.fetching provider) state (.returned (requestResult outcome))
        [.fetched provider outcome]
  | leaveFetch (state : OnceState Provider) (provider : Provider) :
      TokenMoves state (.fetching provider) state .dropped []

def TokenCall.isDetecting : TokenCall Provider → Bool
  | .detecting => true
  | _ => false

section Views

namespace TokenEvent

def isStarted : TokenEvent Provider → Bool
  | .started => true
  | _ => false

def isResolved : TokenEvent Provider → Bool
  | .resolved _ => true
  | _ => false

/-- The provider an event is about. -/
def provider : TokenEvent Provider → Option Provider
  | .resolved provider | .fetched provider _ => some provider
  | .started | .failed => none

end TokenEvent

end Views

section Runs

variable {before next : OnceState Provider} {call after : TokenCall Provider}
  {events : List (TokenEvent Provider)}

/-- What a call has of the right to detect. -/
def TokenCall.held (call : TokenCall Provider) : ℕ := if call.isDetecting then 1 else 0

/-- The right to detect moves between the cell and the call that detects. -/
theorem TokenMoves.conserves (moves : TokenMoves before call next after events) :
    next.settled + after.held = before.settled + call.held := by
  cases moves <;> rfl

/-- What was done so far, and the provider in the cell. -/
structure TokenLedger (state : OnceState Provider) (done : List (TokenEvent Provider)) :
    Prop where
  /-- Everything was done with the provider in the cell. -/
  provider : ∀ event ∈ done, ∀ provider ∈ event.provider, state = .initialized provider
  resolved : done.countP TokenEvent.isResolved = if state.value.isSome then 1 else 0
  /-- After a detection has succeeded, no other starts. -/
  order : done.Pairwise fun earlier later =>
    earlier.isResolved = true → later.isStarted = false

/-- A call fetches a token from the provider in the cell. -/
def TokenCall.Serves (state : OnceState Provider) (call : TokenCall Provider) : Prop :=
  ∀ provider, call = .fetching provider → state = .initialized provider

theorem TokenLedger.concat {done : List (TokenEvent Provider)} (ledger : TokenLedger before done)
    {event : TokenEvent Provider}
    (kept : ∀ provider, before = .initialized provider → next = .initialized provider)
    (about : ∀ provider ∈ event.provider, next = .initialized provider)
    (resolved : (if before.value.isSome then 1 else 0) + (if event.isResolved then 1 else 0) =
      if next.value.isSome then 1 else 0)
    (start : event.isStarted = true → before.value = none) :
    TokenLedger next (done ++ [event]) := by
  refine ⟨?_, ?_, ?_⟩
  · intro earlier member provider same
    rcases List.mem_append.mp member with old | new
    · exact kept provider (ledger.provider earlier old provider same)
    · rw [List.mem_singleton.mp new] at same
      exact about provider same
  · rw [List.countP_append, ledger.resolved, List.countP_singleton, resolved]
  · apply List.pairwise_append.mpr
    refine ⟨ledger.order, List.pairwise_singleton _ _, ?_⟩
    intro earlier member later new success
    rw [List.mem_singleton.mp new]
    apply Bool.eq_false_iff.mpr
    intro started
    have none := ledger.resolved
    rw [start started] at none
    exact List.countP_eq_zero.mp none earlier member success

/-- A move leaves the provider in the cell. -/
theorem TokenMoves.keeps (moves : TokenMoves before call next after events) {provider : Provider}
    (found : before = .initialized provider) : next = .initialized provider := by
  cases moves with
  | find | leave | fetch | leaveFetch => exact found
  | start | resolve | fail | abandon => cases found

theorem TokenMoves.ledger (moves : TokenMoves before call next after events)
    {done : List (TokenEvent Provider)} (ledger : TokenLedger before done)
    (serves : call.Serves before) : TokenLedger next (done ++ events) ∧ after.Serves next := by
  cases moves with
  | find provider =>
      rw [List.append_nil]
      refine ⟨ledger, ?_⟩
      rintro _ ⟨⟩
      rfl
  | leave | leaveFetch =>
      rw [List.append_nil]
      exact ⟨ledger, by rintro provider ⟨⟩⟩
  | start | fail | abandon =>
      refine ⟨ledger.concat (by rintro _ ⟨⟩) (by rintro provider ⟨⟩) rfl fun _ => rfl, ?_⟩
      rintro provider ⟨⟩
  | resolve provider =>
      refine ⟨ledger.concat (by rintro _ ⟨⟩) ?_ rfl (by rintro ⟨⟩), ?_⟩
      · rintro found ⟨⟩
        rfl
      · rintro found ⟨⟩
        rfl
  | fetch provider outcome =>
      refine ⟨ledger.concat (fun _ => id) ?_ rfl (by rintro ⟨⟩), ?_⟩
      · rintro found ⟨⟩
        exact serves _ rfl
      · rintro found ⟨⟩

variable {once : OnceCell Cell Provider}
  {system : System Cell (TokenCall Provider) (TokenEvent Provider)}

variable {state : Cell → OnceState Provider} (lawful : once.Lawful state)

include lawful

end Runs

end Sturnus
