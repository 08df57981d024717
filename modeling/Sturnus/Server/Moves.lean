import Sturnus.Server.Run

/-!
# What a request can do

One constructor for every way a request advances.  Invariants of runs are proved
by cases on these, without unfolding the handler again.
-/

namespace Sturnus

open Foundation Foundation.Http Foundation.Concurrent

variable {F : Type} [Float64 F] {Map : Type}

/-- The route leads to a candidate of its alias. -/
def ModelMap.Routes (map : ModelMap) (route : Route) : Prop :=
  ∃ candidates, map.get route.modelAlias = some candidates ∧ route.candidate ∈ candidates

/-- The changes a list of effects makes, in order. -/
def AppState.performAll (app : AppState F) (effects : List Effect) : AppState F :=
  effects.foldl AppState.perform app

/-- What no effect changes, no list of effects changes. -/
theorem AppState.performAll_keeps {View : Type} (view : AppState F → View)
    (keeps : ∀ app effect, view (app.perform effect) = view app) (app : AppState F)
    (effects : List Effect) : view (app.performAll effects) = view app := by
  induction effects generalizing app with
  | nil => rfl
  | cons effect rest inductionHypothesis => exact (inductionHypothesis _).trans (keeps app effect)

inductive Moves (codecs : Codecs Map) (app : AppState F) (request : Request) :
    Phase F → AppState F → Phase F → List Effect → Prop where
  | observe (response : Response F) :
      Moves codecs app request .received app (.observed response) []
  | refuse {rejection : Rejection} :
      (rejection = .budgetExhausted → ∃ bytes, request.declaredLen = some bytes ∧
        bytes ≤ app.budget.maxBodyBytes ∧ app.budget.reserve bytes = none) →
      Moves codecs app request .received (app.performAll rejection.effects)
        (.rejected rejection none) rejection.effects
  | reserve {bytes : UInt64} {permit : Permit} {budget : BufferBudget} :
      request.declaredLen = some bytes → bytes ≤ app.budget.maxBodyBytes →
      app.budget.reserve bytes = some (permit, budget) →
      Moves codecs app request .received (app.setBudget budget) (.buffering permit) []
  | leave : Moves codecs app request .received app .cancelled []
  | leaveBody (permit : Permit) :
      Moves codecs app request (.buffering permit) (app.release permit) .cancelled []
  | reject {permit : Permit} {read : Except BodyError (List UInt8)} {rejection : Rejection}
      {route : Option Route} {rrState : RoundRobinState} :
      routeBody codecs.json app request.affinityHeader permit read =
        (.rejected rejection route, rrState) →
      rejection ≠ .budgetExhausted → (∀ given ∈ route, app.modelMap.Routes given) →
      Moves codecs app request (.buffering permit) ((app.performAll (ticksOf route)).release permit)
        (.rejected rejection route) (ticksOf route)
  | forward {permit : Permit} {read : Except BodyError (List UInt8)} {data : List UInt8}
      {route : Route} {rrState : RoundRobinState} :
      routeBody codecs.json app request.affinityHeader permit read =
        (.forwarding route ⟨some data, some permit⟩, rrState) →
      app.modelMap.Routes route →
      Moves codecs app request (.buffering permit) (app.performAll route.ticks)
        (.called ⟨route, some ⟨some data, some permit⟩, .awaiting⟩) route.ticks
  | complete {route : Route} {exchange : Exchange} {result : Except ForwardError ProxyResult}
      (outbound : Option OutboundBody) :
      forwardRequest route.candidate route.isStreaming app.budget.maxBodyBytes
        app.gcpTokenProvider exchange = some result →
      Moves codecs app request (.called ⟨route, outbound, .awaiting⟩) app
        (.called ⟨route, outbound, .recording ⟨exchange, result⟩
          (route.effects ⟨exchange, result⟩)⟩) []
  | record (route : Route) (outbound : Option OutboundBody) (completion : Completion)
      (effect : Effect) (rest : List Effect) :
      Moves codecs app request (.called ⟨route, outbound, .recording completion (effect :: rest)⟩)
        (app.perform effect) (.called ⟨route, outbound, .recording completion rest⟩) [effect]
  | respond (route : Route) (outbound : Option OutboundBody) (completion : Completion) :
      Moves codecs app request (.called ⟨route, outbound, .recording completion []⟩) app
        (.called ⟨route, outbound, .responded completion⟩) []
  | abandon (route : Route) (outbound : Option OutboundBody) :
      Moves codecs app request (.called ⟨route, outbound, .awaiting⟩) app
        (.called ⟨route, outbound, .cancelled⟩) []
  | upload (route : Route) (body : OutboundBody) (stage : Stage) :
      Moves codecs app request (.called ⟨route, some body, stage⟩) app
        (.called ⟨route, some body.pollFrame.2, stage⟩) []
  | drop (route : Route) (body : OutboundBody) (stage : Stage) :
      Moves codecs app request (.called ⟨route, some body, stage⟩) (app.dropBody body)
        (.called ⟨route, none, stage⟩) []

section Routing

variable {app : AppState F}

/-- A selection among some candidates finds one of them and draws one tick. -/
theorem selectCandidate_spec {candidates : List ResolvedCandidate} (nonempty : candidates ≠ [])
    (modelAlias : Text) (tracker : Tracker F) (rr : RoundRobinState) (k : F)
    (mode : LatencyMode) :
    ∃ index, ∃ inside : index < candidates.length,
      selectCandidate modelAlias candidates tracker rr k mode =
        (some index, (rr.nextTick modelAlias).2) ∧ candidates[index] ∈ candidates := by
  have weights : candidateWeights candidates tracker k mode ≠ [] := by
    intro empty
    have length := length_candidateWeights candidates tracker k mode
    rw [empty] at length
    exact nonempty (List.length_eq_zero_iff.mp length.symm)
  have inside := selectIndex_lt weights (rr.nextTick modelAlias).1
  rw [length_candidateWeights] at inside
  refine ⟨_, inside, ?_, List.getElem_mem inside⟩
  unfold selectCandidate
  rw [if_neg (by simpa using nonempty)]

/-- How a candidate is chosen: the one that the header pins, or else one by the next tick. -/
inductive Chooses (app : AppState F) (header : Option HeaderValue) (modelAlias : Text)
    (candidates : List ResolvedCandidate) (isStreaming : Bool) :
    Option Route → RoundRobinState → Prop where
  | nothing : candidates = [] →
      Chooses app header modelAlias candidates isStreaming none app.rrState
  | honors {candidate : ResolvedCandidate} :
      pinned app.tracker candidates header = some candidate →
      Chooses app header modelAlias candidates isStreaming
        (some ⟨modelAlias, candidate, true, isStreaming⟩) app.rrState
  | selects {candidate : ResolvedCandidate} : candidate ∈ candidates →
      pinned app.tracker candidates header = none →
      Chooses app header modelAlias candidates isStreaming
        (some ⟨modelAlias, candidate, false, isStreaming⟩) (app.rrState.nextTick modelAlias).2

variable {header : Option HeaderValue} {modelAlias : Text} {candidates : List ResolvedCandidate}
  {isStreaming : Bool} {rrState : RoundRobinState}

theorem chooseCandidate_chooses {route : Option Route}
    (chosen : chooseCandidate app header modelAlias candidates isStreaming = (route, rrState)) :
    Chooses app header modelAlias candidates isStreaming route rrState := by
  unfold chooseCandidate at chosen
  split at chosen
  next candidate honored =>
    cases chosen
    exact .honors honored
  next unpinned =>
    by_cases empty : candidates = []
    · subst empty
      cases chosen
      exact .nothing rfl
    · obtain ⟨index, inside, selected, member⟩ := selectCandidate_spec empty modelAlias
        app.tracker app.rrState app.exploitK (.ofStreaming isStreaming)
      rw [selected] at chosen
      simp only [Option.bind_some, List.getElem?_eq_getElem inside, Option.map_some,
        Prod.mk.injEq] at chosen
      obtain ⟨rfl, rfl⟩ := chosen
      exact .selects member unpinned

/-- Choosing fails for an empty list only. -/
theorem Chooses.empty (chooses : Chooses app header modelAlias candidates isStreaming none rrState) :
    candidates = [] := by
  cases chooses with
  | nothing empty => exact empty

theorem Chooses.given {route : Route}
    (chooses : Chooses app header modelAlias candidates isStreaming (some route) rrState) :
    ∃ candidate ∈ candidates, ∃ pinned, route = ⟨modelAlias, candidate, pinned, isStreaming⟩ := by
  cases chooses with
  | honors honored => exact ⟨_, pinned_mem honored, true, rfl⟩
  | selects member => exact ⟨_, member, false, rfl⟩

/-- Choosing a candidate draws the ticks of its route and nothing else. -/
theorem Chooses.spec {route : Option Route}
    (chooses : Chooses app header modelAlias candidates isStreaming route rrState)
    (lookup : app.modelMap.get modelAlias = some candidates) :
    { app with rrState := rrState } = app.performAll (ticksOf route) ∧
      ∀ given ∈ route, app.modelMap.Routes given := by
  constructor
  · cases chooses <;> rfl
  · rintro given ⟨⟩
    obtain ⟨candidate, member, _, rfl⟩ := chooses.given
    exact ⟨candidates, lookup, member⟩

omit [Float64 F] in
theorem readBody_lookup {json : SerdeJson Map} {read : Except BodyError (List UInt8)}
    {body : RawBody} {modelAlias : Text} {candidates : List ResolvedCandidate}
    (accepted : readBody json app read = .ok (body, modelAlias, candidates)) :
    app.modelMap.get modelAlias = some candidates := by
  simp only [readBody, bind_eq_ok, okOr_eq_ok, pure, Except.pure, Except.ok.injEq,
    Prod.mk.injEq] at accepted
  obtain ⟨_, -, _, -, _, -, _, found, -, rfl, rfl⟩ := accepted
  exact found

theorem prepareOutbound_permit {json : SerdeJson Map} {body : RawBody} {realModel : Text}
    {labels : Option (HashMap Text Text)} {permit : Option Permit} {outbound : OutboundBody}
    (prepared : prepareOutbound json body realModel labels permit = .ok outbound) :
    ∃ data, outbound = ⟨some data, permit⟩ := by
  simp only [prepareOutbound, bind_eq_ok, pure, Except.pure, Except.ok.injEq] at prepared
  obtain ⟨_, -, data, -, rfl⟩ := prepared
  exact ⟨data, rfl⟩

omit [Float64 F] in
/-- Nothing behind the admission refuses for want of memory. -/
theorem readBody_error_ne {json : SerdeJson Map} {read : Except BodyError (List UInt8)}
    {rejection : Rejection} (refused : readBody json app read = .error rejection) :
    rejection ≠ .budgetExhausted := by
  rintro rfl
  unfold readBody at refused
  rcases read with (_ | _) | bytes
  · cases refused
  · cases refused
  · cases parsed : RawBody.deserialize json bytes with
    | error error =>
        cases error <;> simp [parsed, Except.mapError, bind, Except.bind] at refused
    | ok body =>
        simp only [parsed, Except.mapError, bind, Except.bind] at refused
        cases named : body.getAs json.parseString modelKey with
        | none => simp [named, okOr] at refused
        | some modelAlias =>
            simp only [named, okOr] at refused
            cases found : app.modelMap.get modelAlias <;> simp [found, pure, Except.pure] at refused

/-- Routing draws the ticks of the route it gives, and only a forwarded body takes the
permit along. -/
theorem routeBody_spec {json : SerdeJson Map} {header : Option HeaderValue} {permit : Permit}
    {read : Except BodyError (List UInt8)} {routed : Routed} {rrState : RoundRobinState}
    (result : routeBody json app header permit read = (routed, rrState)) :
    { app with rrState := rrState } = app.performAll (ticksOf routed.route) ∧
      (∀ given ∈ routed.route, app.modelMap.Routes given) ∧
      (∀ rejection route, routed = .rejected rejection route → rejection ≠ .budgetExhausted) ∧
      ∀ route outbound, routed = .forwarding route outbound →
        ∃ data, outbound = ⟨some data, some permit⟩ := by
  unfold routeBody at result
  split at result
  next rejection refused =>
    cases result
    refine ⟨rfl, by simp [Routed.route], ?_, by simp⟩
    rintro _ _ ⟨⟩
    exact readBody_error_ne refused
  next body modelAlias candidates accepted =>
    have lookup := readBody_lookup accepted
    dsimp only at result
    split at result
    next chosen =>
      cases result
      obtain ⟨same, routes⟩ := (chooseCandidate_chooses chosen).spec lookup
      exact ⟨same, routes, by rintro _ _ ⟨⟩ ⟨⟩, by simp⟩
    next route _ chosen =>
      obtain ⟨same, routes⟩ := (chooseCandidate_chooses chosen).spec lookup
      split at result
      next =>
        cases result
        exact ⟨same, routes, by rintro _ _ ⟨⟩ ⟨⟩, by simp⟩
      next prepared =>
        cases result
        refine ⟨same, routes, by simp, ?_⟩
        rintro _ _ ⟨⟩
        exact prepareOutbound_permit prepared

end Routing

section Inversion

variable {codecs : Codecs Map} {app : AppState F} {request : Request}

/-- What an admission decision says about the size of the request and the budget. -/
def Admission.Justified (app : AppState F) (request : Request) : Admission F → Prop
  | .observed _ => True
  | .rejected rejection => rejection = .budgetExhausted → ∃ bytes,
      request.declaredLen = some bytes ∧ bytes ≤ app.budget.maxBodyBytes ∧
        app.budget.reserve bytes = none
  | .admitted permit budget => ∃ bytes, request.declaredLen = some bytes ∧
      bytes ≤ app.budget.maxBodyBytes ∧ app.budget.reserve bytes = some (permit, budget)

theorem admission_justified (codecs : Codecs Map) (app : AppState F) (request : Request) :
    (admission codecs app request).Justified app request := by
  unfold admission
  split
  next => split <;> simp [Admission.Justified]
  next => simp [Admission.Justified]
  next =>
    split
    next => simp [Admission.Justified]
    next bytes declared =>
      split
      next => simp [Admission.Justified]
      next fits =>
        have within : bytes ≤ app.budget.maxBodyBytes := UInt64.not_lt.mp fits
        split
        next refused => exact fun _ => ⟨bytes, declared, within, refused⟩
        next permit budget reserved => exact ⟨bytes, declared, within, reserved⟩

theorem advanceReceived_moves (codecs : Codecs Map) (app : AppState F) (request : Request) :
    Moves codecs app request .received (advanceReceived codecs app request).1
      (advanceReceived codecs app request).2.1 (advanceReceived codecs app request).2.2 := by
  have justified := admission_justified codecs app request
  unfold advanceReceived
  split
  next response _ => exact .observe response
  next rejection admitted =>
    rw [admitted] at justified
    exact .refuse justified
  next permit budget admitted =>
    rw [admitted] at justified
    obtain ⟨bytes, declared, within, reserved⟩ := justified
    exact .reserve declared within reserved

theorem advanceCollected_moves (codecs : Codecs Map) (app : AppState F) (request : Request)
    (permit : Permit) (read : Except BodyError (List UInt8)) :
    Moves codecs app request (.buffering permit) (advanceCollected codecs app request permit read).1
      (advanceCollected codecs app request permit read).2.1
      (advanceCollected codecs app request permit read).2.2 := by
  unfold advanceCollected
  split
  next rejection route rrState routed =>
    obtain ⟨same, routes, reason, -⟩ := routeBody_spec routed
    rw [same]
    exact .reject routed (reason rejection route rfl) routes
  next route outbound rrState routed =>
    obtain ⟨same, routes, -, taken⟩ := routeBody_spec routed
    obtain ⟨data, rfl⟩ := taken route outbound rfl
    rw [same]
    exact .forward routed (routes route rfl)

theorem advanceCall_moves {call next : Call} {input : Input} {after : AppState F}
    {effects : List Effect} (moved : advanceCall app call input = some (after, next, effects)) :
    Moves codecs app request (.called call) after (.called next) effects := by
  obtain ⟨route, outbound, stage⟩ := call
  cases input with
  | exchanged exchange =>
      cases stage with
      | awaiting =>
          obtain ⟨result, ended, same⟩ := Option.map_eq_some_iff.mp moved
          cases same
          exact .complete outbound ended
      | recording | responded | cancelled => cases moved
  | record =>
      cases stage with
      | recording completion remaining =>
          cases remaining with
          | nil =>
              cases moved
              exact .respond route outbound completion
          | cons effect rest =>
              cases moved
              exact .record route outbound completion effect rest
      | awaiting | responded | cancelled => cases moved
  | cancel =>
      cases stage with
      | awaiting =>
          cases moved
          exact .abandon route outbound
      | recording | responded | cancelled => cases moved
  | uploadFrame =>
      obtain ⟨body, rfl, same⟩ := Option.map_eq_some_iff.mp moved
      cases same
      exact .upload route body stage
  | dropOutbound =>
      obtain ⟨body, rfl, same⟩ := Option.map_eq_some_iff.mp moved
      cases same
      exact .drop route body stage
  | poll | collected => cases moved

theorem advancePhase_moves {phase next : Phase F} {input : Input} {after : AppState F}
    {effects : List Effect}
    (moved : advancePhase codecs app request phase input = some (after, next, effects)) :
    Moves codecs app request phase after next effects := by
  unfold advancePhase at moved
  split at moved
  next =>
    have moves := advanceReceived_moves codecs app request
    rw [Option.some.inj moved] at moves
    exact moves
  next =>
    cases moved
    exact .leave
  next permit read =>
    have moves := advanceCollected_moves codecs app request permit read
    rw [Option.some.inj moved] at moves
    exact moves
  next permit =>
    cases moved
    exact .leaveBody permit
  next call input =>
    obtain ⟨⟨after, call', effects⟩, advanced, same⟩ := Option.map_eq_some_iff.mp moved
    cases same
    exact advanceCall_moves advanced
  next => cases moved

theorem advancePhase_of_advance {task next : Task F} {input : Input} {after : AppState F}
    {effects : List Effect}
    (moved : (handler codecs).advance app task input = some (after, next, effects)) :
    advancePhase codecs app task.request task.phase input = some (after, next.phase, effects) := by
  obtain ⟨⟨after, phase, effects⟩, advanced, same⟩ := Option.map_eq_some_iff.mp moved
  cases same
  exact advanced

/-- Every advance of a request is one of the moves. -/
theorem handler_moves {task next : Task F} {input : Input} {after : AppState F}
    {effects : List Effect}
    (moved : (handler codecs).advance app task input = some (after, next, effects)) :
    Moves codecs app task.request task.phase after next.phase effects :=
  advancePhase_moves (advancePhase_of_advance moved)

end Inversion

end Sturnus
