import Sturnus.Server.Ledger

/-!
# Counting over ledgers

How many effects of a kind one request recorded, read off its phase.
-/

namespace Sturnus

open Foundation Foundation.Http

section Kinds

namespace Effect

def isOutcome : Effect → Bool
  | .outcome _ _ => true
  | _ => false

/-- An outcome applied to a slot. -/
def isOutcomeOf (slot : ℕ) : Effect → Bool
  | .outcome applied _ => applied == slot
  | _ => false

def isTickOf (modelAlias : Text) : Effect → Bool
  | .tick drawn => drawn == modelAlias
  | _ => false

/-- A request or an error counted under labels that satisfy `p`. -/
def isMetered (p : UpstreamLabels → Bool) : Effect → Bool
  | .request labels _ => p labels
  | .error labels => p labels
  | _ => false

end Effect

namespace Phase

variable {F : Type}

/-- Completed on a candidate with the slot. -/
def completedOn (slot : ℕ) (phase : Phase F) : Bool :=
  phase.completed.any fun completed => completed.1.candidate.statsIndex == slot

/-- Routed by a selection of the alias, not by a pin. -/
def selectedFor (modelAlias : Text) (phase : Phase F) : Bool :=
  phase.route.any fun route => !route.pinned && route.modelAlias == modelAlias

/-- Between its completion and its response. -/
def isRecording : Phase F → Bool
  | .called ⟨_, _, .recording _ _⟩ => true
  | _ => false

end Phase

end Kinds

/-- No request is between its completion and its response. -/
def Settled {F : Type} (server : Server F) : Prop :=
  ∀ task ∈ server.tasks, task.phase.isRecording = false

section Effects

theorem countP_ticksOf (route : Option Route) (modelAlias : Text) :
    (ticksOf route).countP (Effect.isTickOf modelAlias) =
      if route.any fun given => !given.pinned && given.modelAlias == modelAlias then 1 else 0 := by
  cases route with
  | none => rfl
  | some route =>
      unfold ticksOf Route.ticks
      cases drawn : route.pinned <;> simp [drawn, Effect.isTickOf, List.countP_cons]

theorem countP_refusal {F : Type} (phase : Phase F) {p : Effect → Bool}
    (other : p .bufferRejection = false) : phase.refusal.countP p = 0 := by
  cases phase with
  | rejected rejection route => cases rejection <;> simp [Phase.refusal, Rejection.effects, other]
  | _ => rfl

variable (route : Route) (completion : Completion)

/-- One outcome is due for a completion, on the slot of its candidate. -/
theorem countP_effects_outcomeOf (slot : ℕ) :
    (route.effects completion).countP (Effect.isOutcomeOf slot) =
      if route.candidate.statsIndex == slot then 1 else 0 := by
  unfold Route.effects
  split
  · split <;> simp [Effect.isOutcomeOf, List.countP_cons]
  · simp [Effect.isOutcomeOf, List.countP_cons]

theorem countP_effects_outcome :
    (route.effects completion).countP Effect.isOutcome = 1 := by
  unfold Route.effects
  split
  · split <;> simp [Effect.isOutcome, List.countP_cons]
  · simp [Effect.isOutcome, List.countP_cons]

/-- One request or error is due for a completion, under its labels. -/
theorem countP_effects_metered (p : UpstreamLabels → Bool) :
    (route.effects completion).countP (Effect.isMetered p) = if p route.labels then 1 else 0 := by
  unfold Route.effects
  cases labelled : p route.labels
  all_goals
    split
    · split <;> simp [Effect.isMetered, labelled]
    · simp [Effect.isMetered, labelled]

theorem countP_effects_tick (modelAlias : Text) :
    (route.effects completion).countP (Effect.isTickOf modelAlias) = 0 := by
  unfold Route.effects
  split
  · split <;> simp [Effect.isTickOf]
  · simp [Effect.isTickOf]

variable {route completion}

theorem mem_effects_outcome {slot : ℕ} {success : Bool}
    (member : Effect.outcome slot success ∈ route.effects completion) :
    route.candidate.statsIndex = slot ∧ (success = true ↔
      ∃ answer, completion.result = .ok answer ∧ answer.status.isSuccess = true) := by
  unfold Route.effects at member
  split at member
  next answer ended =>
    rw [ended]
    split at member
    next good =>
      obtain ⟨rfl, rfl⟩ : slot = route.candidate.statsIndex ∧ success = true := by
        simpa using member
      simp [good]
    next bad =>
      obtain ⟨rfl, rfl⟩ : slot = route.candidate.statsIndex ∧ success = false := by
        simpa using member
      simp [bad]
  next error ended =>
    obtain ⟨rfl, rfl⟩ : slot = route.candidate.statsIndex ∧ success = false := by
      simpa using member
    simp [ended]

theorem mem_effects_latency {slot : ℕ} {mode : LatencyMode} {observed : Duration}
    (member : Effect.latency slot mode observed ∈ route.effects completion) :
    ∃ answer, completion.result = .ok answer ∧ answer.status.isSuccess = true ∧
      route.candidate.statsIndex = slot ∧ answer.latency.mode = mode := by
  unfold Route.effects at member
  split at member
  next answer ended =>
    split at member
    next good =>
      obtain ⟨rfl, rfl, -⟩ : slot = route.candidate.statsIndex ∧ mode = answer.latency.mode ∧
          observed = answer.latency.elapsed := by simpa using member
      exact ⟨answer, ended, good, rfl, rfl⟩
    next => simp at member
  next => simp at member

end Effects

section Tasks

theorem Phase.route_of_completed {F : Type} {phase : Phase F} {completed : Route × Completion}
    (ended : phase.completed = some completed) : phase.route = some completed.1 := by
  cases phase with
  | called call =>
      obtain ⟨completion, -, rfl⟩ := Option.map_eq_some_iff.mp ended
      rfl
  | _ => cases ended

variable {F : Type} {app : AppState F} {phase : Phase F} {done : List Effect}

theorem remaining_of_settled (settled : phase.isRecording = false) : phase.remaining = [] := by
  cases phase with
  | called call =>
      obtain ⟨route, outbound, stage⟩ := call
      cases stage with
      | recording completion remaining => cases settled
      | awaiting | responded | cancelled => rfl
  | _ => rfl

/-- A settled request has recorded all that is due. -/
theorem Ledger.done_eq (ledger : Ledger app phase done) (settled : phase.isRecording = false) :
    done = phase.opening ++ phase.closing := by
  obtain ⟨recorded, rfl, whole⟩ := ledger.recorded
  rw [remaining_of_settled settled, List.append_nil] at whole
  rw [whole]

/-- What a settled request recorded once for every completion it recorded once. -/
theorem Ledger.countP_settled (ledger : Ledger app phase done)
    (settled : phase.isRecording = false) {p : Effect → Bool} {q : Route → Bool}
    (refusal : p .bufferRejection = false) (ticks : ∀ modelAlias, p (.tick modelAlias) = false)
    (due : ∀ route completion,
      (route.effects completion).countP p = if q route then 1 else 0) :
    done.countP p = if phase.completed.any fun completed => q completed.1 then 1 else 0 := by
  have noTicks : (ticksOf phase.route).countP p = 0 := by
    cases phase.route with
    | none => rfl
    | some route =>
        unfold ticksOf Route.ticks
        cases drawn : route.pinned <;> simp [drawn, ticks]
  rw [ledger.done_eq settled, List.countP_append, Phase.opening, List.countP_append,
    countP_refusal phase refusal, noTicks, Phase.closing]
  cases phase.completed with
  | none => rfl
  | some completed => simpa using due completed.1 completed.2

/-- In every phase, the ticks recorded are those of the route. -/
theorem Ledger.countP_tick (ledger : Ledger app phase done) (modelAlias : Text) :
    done.countP (Effect.isTickOf modelAlias) = if phase.selectedFor modelAlias then 1 else 0 := by
  obtain ⟨recorded, rfl, whole⟩ := ledger.recorded
  have closing : phase.closing.countP (Effect.isTickOf modelAlias) = 0 := by
    unfold Phase.closing
    cases phase.completed with
    | none => rfl
    | some completed => exact countP_effects_tick completed.1 completed.2 modelAlias
  rw [← whole, List.countP_append] at closing
  rw [List.countP_append, Phase.opening, List.countP_append, countP_refusal phase rfl,
    countP_ticksOf]
  unfold Phase.selectedFor
  omega

/-- An effect of a completion is recorded only once there is one. -/
theorem Ledger.mem (ledger : Ledger app phase done) {effect : Effect} (member : effect ∈ done) :
    effect ∈ phase.opening ∨ ∃ route completion,
      phase.completed = some (route, completion) ∧ effect ∈ route.effects completion := by
  obtain ⟨recorded, rfl, whole⟩ := ledger.recorded
  rcases List.mem_append.mp member with opening | later
  · exact .inl opening
  · right
    have inClosing : effect ∈ phase.closing := whole ▸ List.mem_append_left _ later
    unfold Phase.closing at inClosing
    cases completed : phase.completed with
    | none => simp [completed] at inClosing
    | some ended =>
        rw [completed] at inClosing
        exact ⟨ended.1, ended.2, rfl, inClosing⟩

/-- Before its completion a request records its refusal or its tick. -/
theorem mem_opening {effect : Effect} (member : effect ∈ phase.opening) :
    effect = .bufferRejection ∨
      ∃ route, phase.route = some route ∧ effect = .tick route.modelAlias := by
  rcases List.mem_append.mp member with refused | ticked
  · left
    cases phase with
    | rejected rejection route =>
        cases rejection with
        | budgetExhausted => exact List.mem_singleton.mp refused
        | _ => cases refused
    | _ => cases refused
  · right
    cases given : phase.route with
    | none =>
        rw [given] at ticked
        cases ticked
    | some route =>
        rw [given] at ticked
        refine ⟨route, rfl, ?_⟩
        change effect ∈ route.ticks at ticked
        unfold Route.ticks at ticked
        split at ticked
        · cases ticked
        · exact List.mem_singleton.mp ticked

/-- The outcome due for a completion says whether the exchange succeeded. -/
theorem Ledger.verdict (ledger : Ledger app phase done) {slot : ℕ} {success : Bool}
    (member : Effect.outcome slot success ∈ done) :
    ∃ route completion, phase.completed = some (route, completion) ∧
      route.candidate.statsIndex = slot ∧
      (success = true ↔ completion.exchange.Succeeds route.candidate.kind app.gcpTokenProvider
        route.isStreaming app.budget.maxBodyBytes) := by
  rcases ledger.mem member with opening | ⟨route, completion, completed, due⟩
  · rcases mem_opening opening with refused | ⟨_, -, ticked⟩
    · cases refused
    · cases ticked
  · obtain ⟨slot, verdict⟩ := mem_effects_outcome due
    rw [forwardRequest_succeeds_iff (ledger.ended route completion completed)] at verdict
    exact ⟨route, completion, completed, slot, verdict⟩

/-- A latency is recorded for a success, in the mode the request was routed in. -/
theorem Ledger.mode (ledger : Ledger app phase done) {slot : ℕ} {mode : LatencyMode}
    {observed : Duration} (member : Effect.latency slot mode observed ∈ done) :
    ∃ route completion, phase.completed = some (route, completion) ∧
      route.candidate.statsIndex = slot ∧ route.mode = mode := by
  rcases ledger.mem member with opening | ⟨route, completion, completed, due⟩
  · rcases mem_opening opening with refused | ⟨_, -, ticked⟩
    · cases refused
    · cases ticked
  · obtain ⟨answer, ended, -, slot, rfl⟩ := mem_effects_latency due
    have call := ledger.ended route completion completed
    rw [ended] at call
    exact ⟨route, completion, completed, slot, (forwardRequest_mode call).symm⟩

/-- Without a completion only a refusal or a tick was recorded. -/
theorem Ledger.silent (ledger : Ledger app phase done) (open' : phase.completed = none)
    {effect : Effect} (member : effect ∈ done) :
    effect = .bufferRejection ∨
      ∃ route, phase.route = some route ∧ effect = .tick route.modelAlias := by
  rcases ledger.mem member with opening | ⟨route, completion, completed, -⟩
  · exact mem_opening opening
  · rw [open'] at completed
    cases completed

end Tasks

end Sturnus
