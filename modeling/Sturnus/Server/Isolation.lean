import Sturnus.Foundation.Concurrent.History
import Sturnus.Server.Translation

/-!
# What requests can do to one another

A request meets the other ones in three things only: whether there is memory for its body, which
candidate it is given, and what a scrape reports.  All the rest follows from the request and from
its own inputs.
-/

namespace Sturnus

open Foundation Foundation.Http Foundation.Concurrent

variable {F : Type} [Float64 F] {Map : Type}

section Phases

/-- The route, however it was chosen. -/
def Route.unpinned (route : Route) : Route := { route with pinned := false }

def Call.unpinned (call : Call) : Call := { call with route := call.route.unpinned }

def Phase.unpinned {F : Type} : Phase F → Phase F
  | .rejected rejection route => .rejected rejection (route.map Route.unpinned)
  | .called call => .called call.unpinned
  | phase => phase

/-- What two processes have in common whatever they serve. -/
structure AppState.SameSetup (app other : AppState F) : Prop where
  modelMap : app.modelMap = other.modelMap
  maxBodyBytes : app.budget.maxBodyBytes = other.budget.maxBodyBytes
  gcpTokenProvider : app.gcpTokenProvider = other.gcpTokenProvider

/-- How one request may fare in two runs in which it takes the same inputs. -/
inductive Phase.Fares (map : ModelMap) (request : Request) : Phase F → Phase F → Prop where
  | alike {phase other : Phase F} : phase.unpinned = other.unpinned →
      Fares map request phase other
  | scraped (response other : Response F) : request.method = .get →
      Fares map request (.observed response) (.observed other)
  | shed (permit : Permit) :
      Fares map request (.rejected .budgetExhausted none) (.buffering permit)
  | admitted (permit : Permit) :
      Fares map request (.buffering permit) (.rejected .budgetExhausted none)
  /-- From two candidates of the alias on, the runs have nothing more in common. -/
  | rerouted {phase other : Phase F} (route twin : Route) : phase.route = some route →
      other.route = some twin → route.modelAlias = twin.modelAlias →
      route.isStreaming = twin.isStreaming → map.Routes route → map.Routes twin →
      route.candidate ≠ twin.candidate → Fares map request phase other

end Phases

section Steps

variable {codecs : Codecs Map} {app other : AppState F} {request : Request}

/-- Whether a path is one of the observability paths. -/
theorem observabilityGet_isSome (codecs : Codecs Map) (path : Text) (app other : AppState F) :
    (observabilityGet codecs path app).isSome = (observabilityGet codecs path other).isSome := by
  unfold observabilityGet
  split
  next => split <;> split <;> rfl
  next =>
    split
    next => rfl
    next => split <;> rfl

/-- The permits of a body do not depend on who else has some. -/
theorem BufferBudget.reserve_permit {budget rest otherBudget otherRest : BufferBudget}
    {bytes : UInt64} {permit otherPermit : Permit}
    (reserved : budget.reserve bytes = some (permit, rest))
    (otherReserved : otherBudget.reserve bytes = some (otherPermit, otherRest)) :
    permit = otherPermit := by
  have count := reserve_count reserved
  have otherCount := reserve_count otherReserved
  cases permit
  cases otherPermit
  exact congrArg Permit.mk (count.trans otherCount.symm)

theorem advanceReceived_fares (setup : app.SameSetup other) (map : ModelMap) :
    Phase.Fares map request (advanceReceived codecs app request).2.1
      (advanceReceived codecs other request).2.1 := by
  unfold advanceReceived admission
  cases method : request.method with
  | other => exact .alike rfl
  | get =>
      have asked := observabilityGet_isSome codecs request.path app other
      cases observed : observabilityGet codecs request.path app with
      | none =>
          rw [observed, Option.isSome_none, eq_comm, Option.isSome_eq_false_iff,
            Option.isNone_iff_eq_none] at asked
          simp only [asked]
          exact .alike rfl
      | some response =>
          rw [observed, Option.isSome_some, eq_comm] at asked
          obtain ⟨twin, found⟩ := Option.isSome_iff_exists.mp asked
          simp only [found]
          exact .scraped response twin method
  | post =>
      cases declared : request.declaredLen with
      | none => exact .alike rfl
      | some bytes =>
          simp only [setup.maxBodyBytes]
          by_cases large : other.budget.maxBodyBytes < bytes
          · simp only [if_pos large]
            exact .alike rfl
          · simp only [if_neg large]
            cases reserved : app.budget.reserve bytes with
            | none =>
                cases otherReserved : other.budget.reserve bytes with
                | none => exact .alike rfl
                | some taken => exact .shed taken.1
            | some taken =>
                cases otherReserved : other.budget.reserve bytes with
                | none => exact .admitted taken.1
                | some otherTaken =>
                    have same := BufferBudget.reserve_permit reserved otherReserved
                    simp only [same]
                    exact .alike rfl

theorem advanceCollected_fares (setup : app.SameSetup other) (permit : Permit)
    (read : Except BodyError (List UInt8)) :
    Phase.Fares app.modelMap request (advanceCollected codecs app request permit read).2.1
      (advanceCollected codecs other request permit read).2.1 := by
  have same : readBody codecs.json other read = readBody codecs.json app read := by
    unfold readBody
    rw [setup.modelMap, setup.maxBodyBytes]
  unfold advanceCollected routeBody
  rw [same]
  cases accepted : readBody codecs.json app read with
  | error rejection => exact .alike rfl
  | ok result =>
      obtain ⟨body, modelAlias, candidates⟩ := result
      have lookup := readBody_lookup accepted
      dsimp only
      generalize (body.getAs codecs.json.parseBool streamKey).getD false = isStreaming
      rcases chosen : chooseCandidate app request.affinityHeader modelAlias candidates isStreaming
        with ⟨route, rrState⟩
      rcases chosenTwin : chooseCandidate other request.affinityHeader modelAlias candidates
        isStreaming with ⟨routeTwin, rrStateTwin⟩
      have chooses := chooseCandidate_chooses chosen
      have choosesTwin := chooseCandidate_chooses chosenTwin
      cases route with
      | none =>
          cases routeTwin with
          | none => exact .alike rfl
          | some twin =>
              obtain rfl := chooses.empty
              obtain ⟨_, none, -⟩ := choosesTwin.given
              cases none
      | some route =>
          obtain ⟨candidate, member, pinned, rfl⟩ := chooses.given
          cases routeTwin with
          | none =>
              obtain rfl := choosesTwin.empty
              cases member
          | some twin =>
              obtain ⟨twin, memberTwin, pinnedTwin, rfl⟩ := choosesTwin.given
              by_cases sameCandidate : candidate = twin
              · subst sameCandidate
                dsimp only
                cases prepareOutbound codecs.json body candidate.model candidate.attributionLabels
                    (some permit) with
                | error message => exact .alike rfl
                | ok outbound => exact .alike rfl
              · apply Phase.Fares.rerouted ⟨modelAlias, candidate, pinned, isStreaming⟩
                  ⟨modelAlias, twin, pinnedTwin, isStreaming⟩ _ _ rfl rfl
                  ⟨candidates, lookup, member⟩ ⟨candidates, lookup, memberTwin⟩ sameCandidate
                · dsimp only
                  cases prepareOutbound codecs.json body candidate.model
                    candidate.attributionLabels (some permit) <;> rfl
                · dsimp only
                  cases prepareOutbound codecs.json body twin.model twin.attributionLabels
                    (some permit) <;> rfl

/-- A call goes on in the same way, whatever the states it goes on in. -/
theorem advanceCall_unpinned (setup : app.SameSetup other) {call twin next nextTwin : Call}
    {input : Input} {after afterTwin : AppState F} {effects effectsTwin : List Effect}
    (same : call.unpinned = twin.unpinned)
    (moved : advanceCall app call input = some (after, next, effects))
    (movedTwin : advanceCall other twin input = some (afterTwin, nextTwin, effectsTwin)) :
    next.unpinned = nextTwin.unpinned := by
  obtain ⟨⟨modelAlias, candidate, pinned, isStreaming⟩, outbound, stage⟩ := call
  obtain ⟨⟨_, _, pinnedTwin, _⟩, _, _⟩ := twin
  cases same
  cases input with
  | exchanged exchange =>
      cases stage with
      | awaiting =>
          obtain ⟨result, ended, made⟩ := Option.map_eq_some_iff.mp moved
          obtain ⟨resultTwin, endedTwin, madeTwin⟩ := Option.map_eq_some_iff.mp movedTwin
          dsimp only at ended endedTwin
          rw [setup.maxBodyBytes, setup.gcpTokenProvider, endedTwin] at ended
          cases ended
          cases made
          cases madeTwin
          rfl
      | recording | responded | cancelled => cases moved
  | record =>
      cases stage with
      | recording completion remaining =>
          cases remaining with
          | nil =>
              cases moved
              cases movedTwin
              rfl
          | cons effect rest =>
              cases moved
              cases movedTwin
              rfl
      | awaiting | responded | cancelled => cases moved
  | cancel =>
      cases stage with
      | awaiting =>
          cases moved
          cases movedTwin
          rfl
      | recording | responded | cancelled => cases moved
  | uploadFrame =>
      obtain ⟨body, rfl, made⟩ := Option.map_eq_some_iff.mp moved
      cases made
      cases movedTwin
      rfl
  | dropOutbound =>
      obtain ⟨body, rfl, made⟩ := Option.map_eq_some_iff.mp moved
      cases made
      cases movedTwin
      rfl
  | poll | collected => cases moved

/-- A route is given once. -/
theorem Moves.route_eq {phase next : Phase F} {after : AppState F} {effects : List Effect}
    (moves : Moves codecs app request phase after next effects) {route : Route}
    (routed : phase.route = some route) : next.route = some route := by
  cases moves with
  | observe | refuse | reserve | leave | leaveBody | reject | forward => cases routed
  | complete | record | respond | abandon | upload | drop => exact routed

theorem advancePhase_fares (setup : app.SameSetup other) {phase twin next nextTwin : Phase F}
    {input : Input} {after afterTwin : AppState F} {effects effectsTwin : List Effect}
    (fares : phase.Fares app.modelMap request twin)
    (moved : advancePhase codecs app request phase input = some (after, next, effects))
    (movedTwin : advancePhase codecs other request twin input =
      some (afterTwin, nextTwin, effectsTwin)) :
    next.Fares app.modelMap request nextTwin := by
  have moves := advancePhase_moves moved
  have movesTwin := advancePhase_moves movedTwin
  cases fares with
  | scraped | shed => cases moves
  | admitted => cases movesTwin
  | rerouted route routeTwin routed routedTwin modelAlias isStreaming leads leadsTwin differs =>
      exact .rerouted route routeTwin (moves.route_eq routed) (movesTwin.route_eq routedTwin)
        modelAlias isStreaming leads leadsTwin differs
  | alike same =>
      cases phase with
      | rejected | observed | cancelled => cases moves
      | received =>
          cases twin with
          | received =>
              cases input with
              | poll =>
                  have fares : Phase.Fares app.modelMap request
                      (advanceReceived codecs app request).2.1
                      (advanceReceived codecs other request).2.1 :=
                    advanceReceived_fares setup app.modelMap
                  rw [Option.some.inj moved, Option.some.inj movedTwin] at fares
                  exact fares
              | cancel =>
                  cases moved
                  cases movedTwin
                  exact .alike rfl
              | collected | exchanged | record | uploadFrame | dropOutbound => cases moved
          | buffering | rejected | observed | cancelled | called => cases same
      | buffering permit =>
          cases twin with
          | buffering permitTwin =>
              cases same
              cases input with
              | collected read =>
                  have fares : Phase.Fares app.modelMap request
                      (advanceCollected codecs app request permit read).2.1
                      (advanceCollected codecs other request permit read).2.1 :=
                    advanceCollected_fares setup permit read
                  rw [Option.some.inj moved, Option.some.inj movedTwin] at fares
                  exact fares
              | cancel =>
                  cases moved
                  cases movedTwin
                  exact .alike rfl
              | poll | exchanged | record | uploadFrame | dropOutbound => cases moved
          | received | rejected | observed | cancelled | called => cases same
      | called call =>
          cases twin with
          | called callTwin =>
              obtain ⟨⟨_, nextCall, _⟩, advanced, made⟩ := Option.map_eq_some_iff.mp moved
              obtain ⟨⟨_, nextCallTwin, _⟩, advancedTwin, madeTwin⟩ :=
                Option.map_eq_some_iff.mp movedTwin
              cases made
              cases madeTwin
              have goes := advanceCall_unpinned setup (Phase.called.inj same) advanced advancedTwin
              exact .alike (congrArg Phase.called goes)
          | received | buffering | rejected | observed | cancelled => cases same

end Steps

section Runs

variable {codecs : Codecs Map} {app other : AppState F}

theorem request_of_advance {task next : Task F} {input : Input} {after : AppState F}
    {effects : List Effect}
    (moved : (handler codecs).advance app task input = some (after, next, effects)) :
    next.request = task.request := by
  obtain ⟨_, -, same⟩ := Option.map_eq_some_iff.mp moved
  cases same
  rfl

theorem AppState.SameSetup.of_runs (setup : app.SameSetup other) {server replica : Server F}
    (run : Run (handler codecs) app server) (runOther : Run (handler codecs) other replica) :
    server.shared.SameSetup replica.shared where
  modelMap := (run_modelMap run).trans (setup.modelMap.trans (run_modelMap runOther).symm)
  maxBodyBytes :=
    (run_limits run).2.trans (setup.maxBodyBytes.trans (run_limits runOther).2.symm)
  gcpTokenProvider := (run_gcpTokenProvider run).trans
    (setup.gcpTokenProvider.trans (run_gcpTokenProvider runOther).symm)

/-- Take one request with the same inputs in two runs, whatever other requests the runs serve, in
whatever order, and whatever was learned of the candidates.  It has fared in the same way, with the
same body sent upstream, the same to be recorded and the same answer, unless one of the runs refused
it for want of memory, or they gave it two candidates of its alias, or it is a scrape. -/
theorem requests_isolated (setup : app.SameSetup other) {server replica : RecordedServer F}
    (run : Run (handler codecs).recorded app server)
    (runOther : Run (handler codecs).recorded other replica) :
    ∀ recorded ∈ server.tasks, ∀ twin ∈ replica.tasks, recorded.request = twin.request →
      recorded.inputs = twin.inputs →
        recorded.task.phase.Fares app.modelMap recorded.request twin.task.phase := by
  intro recorded member twin memberTwin request inputs
  have related := (run.reached recorded member).related (runOther.reached twin memberTwin) request
    inputs (fun request task twin => task.request = request ∧ twin.request = request ∧
      task.phase.Fares app.modelMap request twin.phase)
  refine (related ?_ ?_).2.2
  · intro request
    exact ⟨rfl, rfl, .alike rfl⟩
  · intro request system systemTwin task twin input after afterTwin next nextTwin effects
      effectsTwin run runTwin both moved movedTwin
    obtain ⟨asked, askedTwin, fares⟩ := both
    have advanced := advancePhase_of_advance moved
    have advancedTwin := advancePhase_of_advance movedTwin
    rw [asked] at advanced
    rw [askedTwin] at advancedTwin
    rw [← run_modelMap run] at fares ⊢
    exact ⟨(request_of_advance moved).trans asked, (request_of_advance movedTwin).trans askedTwin,
      advancePhase_fares (setup.of_runs run runTwin) fares advanced advancedTwin⟩

end Runs

/-- The second of two requests is sent upstream as the only one of another run is. -/
theorem requests_isolated_second :
    ∃ (app : AppState ℝ) (server replica : RecordedServer ℝ),
      boot (some : Text → Option Text) none plainConfig = .ok app ∧
      Run (handler plainCodecs).recorded app server ∧
      Run (handler plainCodecs).recorded app replica ∧
      ∃ only ∈ server.tasks, ∃ second, replica.tasks[1]? = some second ∧
        only.inputs = plainInputs ∧ second.inputs = plainInputs ∧
        only.task.phase.unpinned = second.task.phase.unpinned := by
  have start : ∃ app candidate permit budget nextPermit nextBudget,
      boot (some : Text → Option Text) none plainConfig = .ok app ∧
      app.modelMap.get "fast".toList = some [candidate] ∧ candidate.attributionLabels = none ∧
      admission plainCodecs app plainRequest = .admitted permit budget ∧
      admission plainCodecs (app.setBudget budget) plainRequest =
        .admitted nextPermit nextBudget :=
    ⟨_, _, _, _, _, _, bind_eq_ok.mpr ⟨(), Config.single_validate _ _ _ (by decide), rfl⟩,
      rfl, rfl, rfl, rfl⟩
  obtain ⟨app, candidate, permit, budget, nextPermit, nextBudget, started, lookup, unlabelled,
    admitted, admittedNext⟩ := start
  have idle : Run (handler plainCodecs).recorded app (.boot app) := .boot
  obtain ⟨_, shared, _, left, map, run⟩ := run_calls idle lookup unlabelled admitted
  have lookupNext : shared.modelMap.get "fast".toList = some [candidate] := by
    rw [map]
    exact lookup
  have admittedShared : admission plainCodecs shared plainRequest =
      .admitted nextPermit nextBudget := by
    rw [← admittedNext]
    unfold admission plainRequest
    rw [left]
    rfl
  obtain ⟨_, _, _, -, -, runNext⟩ := run_calls run lookupNext unlabelled admittedShared
  have fares := requests_isolated ⟨rfl, rfl, rfl⟩ run runNext _ (List.mem_singleton_self _) _
    (List.mem_append_right _ (List.mem_singleton_self _)) rfl rfl
  refine ⟨app, _, _, started, run, runNext, _, List.mem_singleton_self _, _, rfl, rfl, rfl, ?_⟩
  cases fares with
  | alike same => exact same
  | rerouted route twin routed routedTwin _ _ _ _ differs =>
      cases routed
      cases routedTwin
      exact absurd rfl differs

end Sturnus
