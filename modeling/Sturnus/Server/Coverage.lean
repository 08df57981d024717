import Sturnus.Proxy.Footprint
import Sturnus.Server.Accounting

/-!
# Permits and the buffers they are attached to

A permit covers the outbound buffer exactly if what rewriting adds fits into
what it frees and what the last kilobyte has left.  In a run whose bodies all
fit, the outbound bytes that are held stay within the budget.
-/

namespace Sturnus

open Foundation Foundation.Http Foundation.Concurrent

variable {F : Type} [Float64 F] {Map : Type} {IsValue : Text → Prop}

section Buffers

/-- The bytes of the outbound body that is held. -/
def Phase.outboundBytes : Phase F → ℕ
  | .called call => (call.outbound.map OutboundBody.sizeHint).getD 0
  | _ => 0

/-- The bytes of all outbound bodies that are held. -/
def outboundBytes (server : Server F) : ℕ :=
  (server.tasks.map fun task => task.phase.outboundBytes).sum

/-- The permit covers the buffer it is attached to. -/
def OutboundBody.Covered (body : OutboundBody) : Prop := body.sizeHint ≤ 1024 * body.held

/-- A permit was reserved for the declared length, and a body that is held is covered. -/
structure Task.Covered (task : Task F) : Prop where
  reserved : ∀ permit, task.phase = .buffering permit →
    ∃ declared, task.request.declaredLen = some declared ∧
      permit.count = (BufferBudget.wanted declared).toNat
  bytes : task.phase.outboundBytes ≤ 1024 * task.phase.held

end Buffers

section Requests

variable {json : SerdeJson Map} {keep : Json.Number → Option Json.Number} {limit : ℕ}
  {content : Map → List (Text × Json.Tree Text)}

/-- The buffer is within the permit reserved for the declared length exactly if the body
fits. -/
theorem prepareOutbound_covered_iff (layout : Json.Layout IsValue)
    (maps : json.KeepsMaps keep limit content)
    (verbatim : ∀ fields, json.writeObject fields = .ok (Json.compact fields).bytes)
    (declared : UInt64) (realModel : Text) (labels : Option (HashMap Text Text))
    (permit : Option Permit) :
    ∃ data, prepareOutbound json (.ofMembers layout.fields) realModel labels permit =
        .ok ⟨some data, permit⟩ ∧
      (data.length ≤ 1024 * (BufferBudget.wanted declared).toNat ↔
        Fits keep limit layout realModel labels declared) := by
  obtain ⟨data, prepared, size⟩ := size_prepareOutbound maps verbatim realModel labels permit
  refine ⟨data, prepared, ?_⟩
  unfold Fits
  omega

/-- What is behind a forwarded body. -/
theorem routeBody_forwarding {app : AppState F} {header : Option HeaderValue} {permit : Permit}
    {read : Except BodyError (List UInt8)} {route : Route} {outbound : OutboundBody}
    {rrState : RoundRobinState}
    (routed : routeBody json app header permit read = (.forwarding route outbound, rrState)) :
    ∃ bytes members, read = .ok bytes ∧ json.readObject bytes = .ok members ∧ members ≠ [] ∧
      prepareOutbound json (.ofMembers members) route.candidate.model
        route.candidate.attributionLabels (some permit) = .ok outbound := by
  unfold routeBody at routed
  split at routed
  next => cases routed
  next body modelAlias candidates accepted =>
    dsimp only at routed
    split at routed
    next => cases routed
    next chosen =>
      split at routed
      next => cases routed
      next prepared =>
        cases routed
        simp only [readBody, bind_eq_ok, okOr_eq_ok, mapError_eq_ok, pure, Except.pure,
          Except.ok.injEq, Prod.mk.injEq] at accepted
        obtain ⟨bytes, collected, body, parsed, _, named, _, -, rfl, -⟩ := accepted
        obtain ⟨members, object, rfl⟩ := RawBody.deserialize_eq_ok parsed
        refine ⟨bytes, members, collected, object, ?_, prepared⟩
        rintro rfl
        -- an object without members names no alias
        cases named

end Requests

section Steps

variable (IsValue : Text → Prop) (keep : Json.Number → Option Json.Number) (limit : ℕ)
  (codecs : Codecs Map)

/-- If this is a request to be routed, its body fits, rewritten for the candidate it is
given. -/
def FittingStep (app : AppState F) (task : Task F) (input : Input) : Prop :=
  ∀ permit declared route (layout : Json.Layout IsValue),
    task.phase = .buffering permit → task.request.declaredLen = some declared →
    input = .collected (.ok layout.text.bytes) →
    (routeBody codecs.json app task.request.affinityHeader permit (.ok layout.text.bytes)).1.route =
      some route →
    Fits keep limit layout route.candidate.model route.candidate.attributionLabels declared

variable {IsValue keep limit codecs} {app after : AppState F} {effects : List Effect}

/-- The one advance that makes an outbound body out of a permit. -/
theorem forwarded_of_advance {request : Request} {permit : Permit} {input : Input} {call : Call}
    (moved : advancePhase codecs app request (.buffering permit) input =
      some (after, .called call, effects)) :
    ∃ read route outbound rrState, input = .collected read ∧
      routeBody codecs.json app request.affinityHeader permit read =
        (.forwarding route outbound, rrState) ∧
      call = ⟨route, some outbound, .awaiting⟩ := by
  cases input with
  | collected read =>
      simp only [advancePhase, advanceCollected, Option.some.injEq] at moved
      split at moved
      next => cases moved
      next route outbound rrState routed =>
        cases moved
        exact ⟨read, route, outbound, rrState, rfl, routed, rfl⟩
  | poll | exchanged | record | cancel | uploadFrame | dropOutbound => cases moved

variable {content : Map → List (Text × Json.Tree Text)}

/-- A body that fits is covered by the permit of its request. -/
theorem FittingStep.forwarded (lawful : codecs.json.Lawful IsValue)
    (maps : codecs.json.KeepsMaps keep limit content)
    (verbatim : ∀ fields, codecs.json.writeObject fields = .ok (Json.compact fields).bytes)
    {task : Task F} {permit : Permit} {read : Except BodyError (List UInt8)} {route : Route}
    {outbound : OutboundBody} {rrState : RoundRobinState}
    (fits : FittingStep IsValue keep limit codecs app task (.collected read))
    (covered : task.Covered) (buffering : task.phase = .buffering permit)
    (routed : routeBody codecs.json app task.request.affinityHeader permit read =
      (.forwarding route outbound, rrState)) : outbound.Covered := by
  obtain ⟨bytes, members, rfl, object, nonempty, prepared⟩ := routeBody_forwarding routed
  obtain ⟨text, rfl, structured⟩ := (lawful.readObject bytes members).mp object
  obtain ⟨layout, rfl, rfl⟩ := Json.exists_layout structured nonempty
  obtain ⟨declared, length, count⟩ := covered.reserved permit buffering
  have given : (routeBody codecs.json app task.request.affinityHeader permit
      (.ok layout.text.bytes)).1.route = some route := by
    rw [routed]
    rfl
  have fit := fits permit declared route layout buffering length rfl given
  obtain ⟨data, written, bound⟩ := prepareOutbound_covered_iff layout maps verbatim declared
    route.candidate.model route.candidate.attributionLabels (some permit)
  rw [written] at prepared
  cases prepared
  have within := bound.mpr fit
  rw [← count] at within
  exact within

/-- Nothing but forwarding makes an outbound body, and uploading only empties it. -/
theorem Moves.covers {request : Request} {phase next : Phase F}
    (moves : Moves codecs app request phase after next effects)
    (covered : Task.Covered ⟨request, phase⟩)
    (forwarded : ∀ permit route outbound, phase = .buffering permit →
      next = .called ⟨route, some outbound, .awaiting⟩ → outbound.Covered) :
    Task.Covered ⟨request, next⟩ := by
  have unheld : ∀ {phase : Phase F}, phase.outboundBytes = 0 →
      phase.outboundBytes ≤ 1024 * phase.held := by
    intro phase empty
    rw [empty]
    exact Nat.zero_le _
  cases moves with
  | observe | refuse | leave | leaveBody | reject =>
      exact ⟨by simp, unheld rfl⟩
  | @reserve declared permit budget length _ reserved =>
      refine ⟨?_, unheld rfl⟩
      rintro taken ⟨⟩
      exact ⟨declared, length, BufferBudget.reserve_count reserved⟩
  | @forward permit read data route =>
      exact ⟨by simp, forwarded permit route _ rfl rfl⟩
  | complete | record | respond | abandon => exact ⟨by simp, covered.bytes⟩
  | upload => exact ⟨by simp, Nat.zero_le _⟩
  | drop => exact ⟨by simp, unheld rfl⟩

/-- A step that fits keeps every request covered. -/
theorem FittingStep.covers (lawful : codecs.json.Lawful IsValue)
    (maps : codecs.json.KeepsMaps keep limit content)
    (verbatim : ∀ fields, codecs.json.writeObject fields = .ok (Json.compact fields).bytes)
    {task next : Task F} {input : Input}
    (fits : FittingStep IsValue keep limit codecs app task input) (covered : task.Covered)
    (moved : (handler codecs).advance app task input = some (after, next, effects)) :
    next.Covered := by
  obtain ⟨⟨after, phase, effects⟩, advanced, same⟩ := Option.map_eq_some_iff.mp moved
  cases same
  apply (advancePhase_moves advanced).covers covered
  rintro permit route outbound buffering rfl
  rw [buffering] at advanced
  obtain ⟨read, _, _, rrState, rfl, routed, same⟩ := forwarded_of_advance advanced
  cases same
  exact fits.forwarded lawful maps verbatim covered buffering routed

/-- In a run of steps that fit every request is covered. -/
theorem run_covered (lawful : codecs.json.Lawful IsValue)
    (maps : codecs.json.KeepsMaps keep limit content)
    (verbatim : ∀ fields, codecs.json.writeObject fields = .ok (Json.compact fields).bytes)
    {server : Server F}
    (run : Run ((handler codecs).restrict (FittingStep IsValue keep limit codecs)) app server) :
    ∀ task ∈ server.tasks, task.Covered := by
  apply run.tasks_rule Task.Covered
  · intro request
    exact ⟨by simp [Handler.restrict, handler, Task.start], Nat.zero_le _⟩
  · intro shared after task next input events covered moved
    obtain ⟨fits, moved⟩ := Handler.restrict_advance.mp moved
    exact fits.covers lawful maps verbatim covered moved

end Steps

omit [Float64 F] in
/-- The bytes that are held are covered by the permits that are held. -/
theorem outboundBytes_le {server : Server F} (covered : ∀ task ∈ server.tasks, task.Covered) :
    outboundBytes server ≤ 1024 * heldPermits server :=
  sum_le_heldPermits fun task member => (covered task member).bytes

/-- A request's outbound buffer is within its permits exactly if its body fits; and in every
run in which the bodies fit, whatever the order of its steps, the outbound bytes that are held
together are within the budget. -/
theorem outbound_within_permits_iff (codecs : Codecs Map) {keep : Json.Number → Option Json.Number}
    {limit : ℕ} {content : Map → List (Text × Json.Tree Text)}
    (lawful : codecs.json.Lawful IsValue) (maps : codecs.json.KeepsMaps keep limit content)
    (verbatim : ∀ fields, codecs.json.writeObject fields = .ok (Json.compact fields).bytes) :
    (∀ (budget rest : BufferBudget) (declared : UInt64) (permit : Permit)
      (layout : Json.Layout IsValue) (realModel : Text) (labels : Option (HashMap Text Text)),
      budget.reserve declared = some (permit, rest) →
      ∃ body data, RawBody.deserialize codecs.json layout.text.bytes = .ok body ∧
        prepareOutbound codecs.json body realModel labels (some permit) =
          .ok ⟨some data, some permit⟩ ∧
        (data.length ≤ 1024 * permit.count ↔
          Fits keep limit layout realModel labels declared)) ∧
    ∀ (app : AppState F) (budgetBytes maxBodyBytes : UInt64) (server : Server F),
      app.budget = .new budgetBytes maxBodyBytes →
      Run ((handler codecs).restrict (FittingStep IsValue keep limit codecs)) app server →
      outboundBytes server ≤ 1024 * server.shared.budget.permits.toNat := by
  constructor
  · intro budget rest declared permit layout realModel labels reserved
    obtain ⟨data, prepared, bound⟩ := prepareOutbound_covered_iff layout maps verbatim
      declared realModel labels (some permit)
    rw [← BufferBudget.reserve_count reserved] at bound
    refine ⟨.ofMembers layout.fields, data, ?_, prepared, bound⟩
    unfold RawBody.deserialize
    rw [(lawful.readObject _ _).mpr ⟨_, rfl, layout.objectText⟩]
    rfl
  · intro app budgetBytes maxBodyBytes server fresh run
    have held : heldPermits server ≤ server.shared.budget.permits.toNat := by
      rw [← run_whole fresh run.of_restrict]
      exact Nat.le_add_left _ _
    have covered := outboundBytes_le (run_covered lawful maps verbatim run)
    exact covered.trans (Nat.mul_le_mul_left 1024 held)

section Narrow

theorem SerdeJson.trees_lawful (keep : Json.Number → Option Json.Number) (limit : ℕ) :
    (SerdeJson.trees keep limit).Lawful Json.FlatValue where
  readObject := SerdeJson.flat_lawful.readObject
  writeObject := SerdeJson.flat_lawful.writeObject
  rawString := SerdeJson.flat_lawful.rawString
  parseString := SerdeJson.flat_lawful.parseString
  isValue := SerdeJson.flat_lawful.isValue

def treeCodecs : Codecs LabelMap := ⟨.trees keepSmall 127, fun _ => .ok []⟩

/-- One model, and a budget of one permit. -/
noncomputable def narrowConfig : Config ℝ :=
  { (Config.single "openai".toList "https://api.openai.com/v1".toList "fast".toList
      ["gpt-4o".toList] : Config ℝ) with
    routing := { (RoutingConfig.default : RoutingConfig ℝ) with
      maxBodyBytes := 1024
      maxBufferedBytes := some 1024 } }

def padKey : Text := "pad".toList

def paddedMembers (model : Text) (n : ℕ) : List (Text × Text) :=
  [(modelKey, Json.quote model), (padKey, Json.quote (List.replicate n 'x'))]

def narrowRequest (declared : UInt64) : Request :=
  ⟨.post, "/v1/chat/completions".toList, none, some declared⟩

theorem paddedMembers_flat (model : Text) (n : ℕ) :
    ∀ member ∈ paddedMembers model n, Json.FlatValue member.2 := by
  intro member inside
  simp only [paddedMembers, List.mem_cons, List.not_mem_nil, or_false] at inside
  rcases inside with rfl | rfl
  · exact .inl ⟨_, Json.token_quote _⟩
  · exact .inl ⟨_, Json.token_quote _⟩

theorem rewritten_padded (realModel model : Text) (n : ℕ) :
    rewritten realModel (paddedMembers model n) = paddedMembers realModel n := rfl

theorem size_quote_replicate (n : ℕ) : (Json.quote (List.replicate n 'x')).size = n + 2 := by
  have inner : Text.size ((List.replicate n 'x').flatMap Json.escapeChar) = n := by
    induction n with
    | zero => rfl
    | succ n inductionHypothesis =>
        have one : (Json.escapeChar 'x').size = 1 := by decide
        rw [List.replicate_succ, List.flatMap_cons, Json.size_append, inductionHypothesis, one,
          Nat.add_comm]
  have mark : ('"').utf8Size = 1 := by decide
  rw [Json.quote, Json.size_cons, Json.size_append, inner, mark]
  change 1 + (n + 1) = _
  omega

theorem size_padded (model : Text) (n : ℕ) :
    (Json.compact (paddedMembers model n)).size = (Json.quote model).size + n + 19 := by
  have modelSize : (Json.quote modelKey).size = 7 := by decide
  have padSize : (Json.quote padKey).size = 5 := by decide
  have empty : Json.fieldsSize [] = 0 := rfl
  rw [Json.size_compact, paddedMembers, if_neg (List.cons_ne_nil _ _), Json.fieldsSize_cons,
    Json.fieldsSize_cons, empty, Json.fieldSize, Json.fieldSize, modelSize, padSize,
    size_quote_replicate]
  dsimp only
  omega

/-- The state it boots into, and the permit of a request. -/
theorem narrow_admits {declared : UInt64} (small : declared ≤ 1024) :
    ∃ app candidate permit budget,
      boot (some : Text → Option Text) none narrowConfig = .ok app ∧
      app.budget = .new 1024 1024 ∧ app.modelMap.get "fast".toList = some [candidate] ∧
      candidate.model = "gpt-4o".toList ∧ candidate.attributionLabels = none ∧
      app.budget.reserve declared = some (permit, budget) ∧ permit.count = 1 ∧
      (handler treeCodecs).advance app (Task.start (narrowRequest declared)) .poll =
        some (app.setBudget budget, ⟨narrowRequest declared, .buffering permit⟩, []) := by
  have valid : narrowConfig.validate (some : Text → Option Text) = .ok () :=
    Config.single_validate "openai".toList "fast".toList ["gpt-4o".toList]
      (by decide)
  have start : ∃ app candidate,
      boot (some : Text → Option Text) none narrowConfig = .ok app ∧
      app.budget = .new 1024 1024 ∧ app.modelMap.get "fast".toList = some [candidate] ∧
      candidate.model = "gpt-4o".toList ∧ candidate.attributionLabels = none :=
    ⟨_, _, bind_eq_ok.mpr ⟨(), valid, rfl⟩, rfl, rfl, rfl, rfl⟩
  obtain ⟨app, candidate, started, fresh, lookup, model, unlabelled⟩ := start
  have within : declared ≤ app.budget.maxBodyBytes := by
    rw [fresh]
    exact small
  have whole : app.budget.availablePermits = app.budget.permits.toNat := by
    rw [fresh]
    exact BufferBudget.availablePermits_new _ _
  obtain ⟨⟨permit, budget⟩, reserved⟩ :=
    Option.isSome_iff_exists.mp (BufferBudget.reserve_isSome whole within)
  have count : permit.count = 1 := by
    have bound : declared.toNat ≤ 1024 := UInt64.le_iff_toNat_le.mp small
    rw [BufferBudget.reserve_count reserved, BufferBudget.wanted_toNat]
    omega
  exact ⟨app, candidate, permit, budget, started, fresh, lookup, model, unlabelled, reserved,
    count, advance_reserves rfl rfl within reserved⟩

theorem padded_forwards (app : AppState ℝ) (permit : Permit) {candidate : ResolvedCandidate}
    (lookup : app.modelMap.get "fast".toList = some [candidate])
    (model : candidate.model = "gpt-4o".toList) (unlabelled : candidate.attributionLabels = none)
    (declared : UInt64) (n : ℕ) :
    ∃ route after, route.candidate = candidate ∧
      (routeBody treeCodecs.json app none permit
        (.ok (Json.compact (paddedMembers "fast".toList n)).bytes)).1.route = some route ∧
      (handler treeCodecs).advance app ⟨narrowRequest declared, .buffering permit⟩
        (.collected (.ok (Json.compact (paddedMembers "fast".toList n)).bytes)) =
          some (after, ⟨narrowRequest declared, .called ⟨route,
            some ⟨some (Json.compact (paddedMembers "gpt-4o".toList n)).bytes, some permit⟩,
            .awaiting⟩⟩, route.ticks) := by
  obtain ⟨isStreaming, rrState, routed, -⟩ := routeBody_compact
    (SerdeJson.trees_lawful keepSmall 127) (paddedMembers_flat "fast".toList n) rfl lookup
    unlabelled permit
  rw [rewritten_padded, model] at routed
  refine ⟨⟨"fast".toList, candidate, false, isStreaming⟩, { app with rrState := rrState }, rfl, ?_,
    ?_⟩
  · change (routeBody (SerdeJson.trees keepSmall 127) _ _ _ _).1.route = _
    rw [routed]
    rfl
  · exact advance_forwarded routed

theorem outboundBytes_alone (task : Task ℝ) (shared : AppState ℝ) (journal : List (ℕ × Effect)) :
    outboundBytes ⟨shared, [task], journal⟩ = task.phase.outboundBytes := by
  simp [outboundBytes]

/-- A body without labels fits when its new model fits beside it. -/
theorem fits_of_unlabelled {layout : Json.Layout Json.FlatValue} {declared : UInt64}
    {realModel : Text} (keep : Json.Number → Option Json.Number) (limit : ℕ)
    (small : layout.text.size + Json.fieldSize (modelKey, Json.quote realModel) ≤ 1024) :
    Fits keep limit layout realModel none declared := by
  have one := BufferBudget.wanted_pos declared
  unfold Fits addedBytes
  dsimp only
  omega

/-- A short body, while it is uploaded. -/
theorem outbound_within_permits_small :
    ∃ app server, boot (some : Text → Option Text) none narrowConfig = .ok app ∧
      Run ((handler treeCodecs).restrict (FittingStep Json.FlatValue keepSmall 127 treeCodecs))
        app server ∧
      0 < outboundBytes server ∧
      outboundBytes server ≤ 1024 * server.shared.budget.permits.toNat ∧
      ∃ permit body data,
        RawBody.deserialize treeCodecs.json (Json.compact (paddedMembers "fast".toList 1)).bytes =
          .ok body ∧
        prepareOutbound treeCodecs.json body "gpt-4o".toList none (some permit) =
          .ok ⟨some data, some permit⟩ ∧
        data.length ≤ 1024 * permit.count := by
  obtain ⟨requests, runs⟩ := outbound_within_permits_iff (F := ℝ) treeCodecs
    (SerdeJson.trees_lawful keepSmall 127) (SerdeJson.trees_keepsMaps keepSmall 127)
    fun fields => rfl
  obtain ⟨app, candidate, permit, budget, started, fresh, lookup, model, unlabelled, reserved,
    count, reserving⟩ := narrow_admits (by decide : (26 : UInt64) ≤ 1024)
  have short : (Json.compact (paddedMembers "fast".toList 1)).size = 26 := by
    rw [size_padded]
    decide
  have fits {layout : Json.Layout Json.FlatValue}
      (same : (Json.compact (paddedMembers "fast".toList 1)).bytes = layout.text.bytes) :
      Fits keepSmall 127 layout "gpt-4o".toList none 26 := by
    have size : layout.text.size = 26 := (congrArg List.length same).symm.trans short
    have model : Json.fieldSize (modelKey, Json.quote "gpt-4o".toList) = 17 := by decide
    apply fits_of_unlabelled
    rw [size, model]
    decide
  obtain ⟨route, after, routed, given, forwarding⟩ := padded_forwards (app.setBudget budget)
    permit lookup model unlabelled 26 1
  have fitsReceived : FittingStep Json.FlatValue keepSmall 127 treeCodecs app
      (Task.start (narrowRequest 26)) .poll := by
    intro permit declared route layout buffering
    cases buffering
  have fitsBuffered : FittingStep Json.FlatValue keepSmall 127 treeCodecs (app.setBudget budget)
      ⟨narrowRequest 26, .buffering permit⟩
      (.collected (.ok (Json.compact (paddedMembers "fast".toList 1)).bytes)) := by
    intro permit declared route layout buffering length collected chosen
    cases buffering
    cases length
    simp only [Input.collected.injEq, Except.ok.injEq] at collected
    rw [← collected] at chosen
    cases given.symm.trans chosen
    rw [routed, model, unlabelled]
    exact fits collected
  have run := ((Run.alone ((handler treeCodecs).restrict _) app (narrowRequest 26)).alone_advance
    (Handler.restrict_advance.mpr ⟨fitsReceived, reserving⟩)).alone_advance
      (Handler.restrict_advance.mpr ⟨fitsBuffered, forwarding⟩)
  obtain ⟨layout, text, -⟩ := Json.exists_layout
    (Json.objectText_compact (paddedMembers_flat "fast".toList 1)) (List.cons_ne_nil _ _)
  obtain ⟨body, data, parsed, prepared, bound⟩ :=
    requests app.budget budget 26 permit layout "gpt-4o".toList none reserved
  rw [← text] at parsed
  refine ⟨app, _, started, run, ?_, runs app 1024 1024 _ fresh run, permit, body, data, parsed,
    prepared, bound.mpr (fits (by rw [text]))⟩
  rw [outboundBytes_alone]
  change 0 < (Json.compact (paddedMembers "gpt-4o".toList 1)).size
  rw [size_padded]
  exact Nat.succ_pos _

/-- A body of exactly one kilobyte, whose model has a name two bytes longer than its alias. -/
theorem outbound_exceeds_budget :
    ∃ app server permit rest body data,
      boot (some : Text → Option Text) none narrowConfig = .ok app ∧
      (Json.compact (paddedMembers "fast".toList 999)).bytes.length = 1024 ∧
      app.budget.reserve 1024 = some (permit, rest) ∧
      RawBody.deserialize treeCodecs.json (Json.compact (paddedMembers "fast".toList 999)).bytes =
        .ok body ∧
      prepareOutbound treeCodecs.json body "gpt-4o".toList none (some permit) =
        .ok ⟨some data, some permit⟩ ∧
      1024 * permit.count < data.length ∧
      Run (handler treeCodecs) app server ∧
      1024 * server.shared.budget.permits.toNat < outboundBytes server := by
  obtain ⟨app, candidate, permit, budget, started, fresh, lookup, model, unlabelled, reserved,
    count, reserving⟩ := narrow_admits (Nat.le_refl _ : (1024 : UInt64) ≤ 1024)
  obtain ⟨route, after, -, -, forwarding⟩ := padded_forwards (app.setBudget budget)
    permit lookup model unlabelled 1024 999
  have run := ((Run.alone (handler treeCodecs) app (narrowRequest 1024)).alone_advance
    reserving).alone_advance forwarding
  have lawful := SerdeJson.trees_lawful keepSmall 127
  have flat := paddedMembers_flat "fast".toList 999
  have exact : (Json.compact (paddedMembers "fast".toList 999)).size = 1024 := by
    rw [size_padded]
    decide
  have longer : (Json.compact (paddedMembers "gpt-4o".toList 999)).size = 1026 := by
    rw [size_padded]
    decide
  have permits : after.budget.permits.toNat = 1 := by
    rw [(run_limits run).1, fresh]
    rfl
  refine ⟨app, _, permit, budget, .ofMembers (paddedMembers "fast".toList 999),
    (Json.compact (paddedMembers "gpt-4o".toList 999)).bytes, started, exact, reserved, ?_, ?_,
    ?_, run, ?_⟩
  · unfold RawBody.deserialize
    rw [show treeCodecs.json.readObject _ = _ from lawful.readObject_compact flat]
    rfl
  · exact lawful.prepareOutbound_ofMembers flat "gpt-4o".toList (some permit)
  · change 1024 * permit.count < (Json.compact (paddedMembers "gpt-4o".toList 999)).size
    rw [count, longer]
    decide
  · rw [outboundBytes_alone]
    change 1024 * after.budget.permits.toNat <
      (Json.compact (paddedMembers "gpt-4o".toList 999)).size
    rw [permits, longer]
    decide

end Narrow

end Sturnus
