import Sturnus.Foundation.Concurrent.History
import Sturnus.ModelMap.Resolution
import Sturnus.Server.Accounting
import Sturnus.Server.Boot

/-!
# What goes upstream and what comes back

What is sent upstream for a request says what its client said, to the model of a candidate that
the configuration lists for the alias; what the client is answered is what that upstream said to
this request.  No other request has a part in it.
-/

namespace Sturnus

open Foundation Foundation.Http Foundation.Concurrent

variable {Map : Type}

section Bodies

/-- The fields say to the model of a candidate what the members said to its alias. -/
structure Translates (json : SerdeJson Map) (candidate : ResolvedCandidate)
    (members fields : List (Text × Text)) : Prop where
  once : (fields.map Prod.fst).Nodup
  ordered : (members.map Prod.fst).eraseDups <+: fields.map Prod.fst
  model : ∃ raw, fields.lookup modelKey = some raw ∧ json.parseString raw = some candidate.model
  others : ∀ key, key ≠ modelKey → (key = labelsKey → candidate.attributionLabels = none) →
    fields.lookup key = last key members

variable {json : SerdeJson Map} {IsValue : Text → Prop} {candidate : ResolvedCandidate}
  {members : List (Text × Text)}

theorem translates_rewritten (lawful : json.Lawful IsValue) (candidate : ResolvedCandidate)
    (members : List (Text × Text)) :
    Translates json candidate members (rewritten candidate.model members) where
  once := nodup_rewritten candidate.model members
  ordered := by
    rw [keys_rewritten]
    exact List.prefix_append _ _
  model := ⟨_, lookup_rewritten_model candidate.model members,
    lawful.parseString _ _ (Json.token_quote candidate.model)⟩
  others _ other _ := lookup_rewritten candidate.model members other

/-- Labels do not touch the other fields. -/
theorem Translates.labelled {fields : List (Text × Text)}
    (translates : Translates json candidate members fields)
    (labelled : candidate.attributionLabels ≠ none) (rawLabels : Text) :
    Translates json candidate members (upsert labelsKey rawLabels fields) where
  once := nodup_upsert translates.once labelsKey rawLabels
  ordered := by
    apply translates.ordered.trans
    rw [keys_upsert]
    split
    · exact List.prefix_refl _
    · exact List.prefix_append _ _
  model := by
    obtain ⟨raw, found, decodes⟩ := translates.model
    refine ⟨raw, ?_, decodes⟩
    rw [lookup_upsert, if_neg (by decide), found]
  others key other unlabelled := by
    have different : key ≠ labelsKey := fun same => labelled (unlabelled same)
    rw [lookup_upsert, if_neg (by simpa using different)]
    exact translates.others key other unlabelled

/-- A prepared body is a translation, written by the JSON library. -/
theorem exists_translation (lawful : json.Lawful IsValue)
    (values : ∀ member ∈ members, IsValue member.2) {permit : Option Permit} {data : List UInt8}
    (prepared : prepareOutbound json (.ofMembers members) candidate.model
      candidate.attributionLabels permit = .ok ⟨some data, permit⟩) :
    ∃ fields, json.writeObject fields = .ok data ∧ Translates json candidate members fields ∧
      (candidate.attributionLabels = none → json.readObject data = .ok fields) := by
  have translates := translates_rewritten lawful candidate members
  cases labels : candidate.attributionLabels with
  | none =>
      rw [labels, lawful.prepareOutbound_ofMembers values] at prepared
      cases prepared
      have rewrittenValues := lawful.values_rewritten values candidate.model
      exact ⟨_, lawful.writeObject _ rewrittenValues, translates,
        fun _ => lawful.readObject_compact rewrittenValues⟩
  | some given =>
      simp only [prepareOutbound, prepareBody, labels, lawful.rawString, bind_eq_ok, pure,
        Except.pure, Except.ok.injEq, exists_eq_left', OutboundBody.mk.injEq] at prepared
      obtain ⟨_, ⟨rawLabels, -, rfl⟩, written, serialized, same, -⟩ := prepared
      cases same
      have labelled : candidate.attributionLabels ≠ none := by
        rw [labels]
        exact Option.some_ne_none given
      refine ⟨_, serialized, translates.labelled labelled rawLabels, ?_⟩
      intro none
      cases none

end Bodies

section Traces

/-- An upstream exchange that a request has taken. -/
def Input.exchange : Input → Option Exchange
  | .exchanged exchange => some exchange
  | _ => none

variable {F : Type}

/-- What a call owes to the bytes of its own client and to what came afterwards. -/
structure Call.Owes (json : SerdeJson Map) (bytes : List UInt8) (rest : List Input) (call : Call) :
    Prop where
  body : ∃ members permit data, json.readObject bytes = .ok members ∧
    (RawBody.ofMembers members).getAs json.parseString modelKey = some call.route.modelAlias ∧
    call.route.isStreaming =
      ((RawBody.ofMembers members).getAs json.parseBool streamKey).getD false ∧
    prepareOutbound json (.ofMembers members) call.route.candidate.model
      call.route.candidate.attributionLabels (some permit) = .ok ⟨some data, some permit⟩ ∧
    ∀ body sent, call.outbound = some body → body.data = some sent → sent = data
  exchanges : rest.filterMap Input.exchange =
    (call.stage.completion.map Completion.exchange).toList

/-- The inputs that lead to a phase, as far as they matter to what is sent and answered. -/
inductive Phase.Traced (json : SerdeJson Map) : Phase F → List Input → Prop where
  | received : Traced json .received []
  | buffering (permit : Permit) : Traced json (.buffering permit) [.poll]
  | called {call : Call} {bytes : List UInt8} {rest : List Input} : call.Owes json bytes rest →
      Traced json (.called call) (.poll :: .collected (.ok bytes) :: rest)
  | rejected (rejection : Rejection) (route : Option Route) (inputs : List Input) :
      Traced json (.rejected rejection route) inputs
  | observed (response : Response F) (inputs : List Input) : Traced json (.observed response) inputs
  | cancelled (inputs : List Input) : Traced json .cancelled inputs

variable [Float64 F] {codecs : Codecs Map} {app after : AppState F} {request : Request}
  {effects : List Effect}

/-- A forwarded body names the alias of its route, and whether it streams. -/
theorem routeBody_owes {permit : Permit} {read : Except BodyError (List UInt8)} {route : Route}
    {outbound : OutboundBody} {rrState : RoundRobinState}
    (routed : routeBody codecs.json app request.affinityHeader permit read =
      (.forwarding route outbound, rrState)) :
    ∃ bytes, read = .ok bytes ∧
      Call.Owes codecs.json bytes [] ⟨route, some outbound, .awaiting⟩ := by
  unfold routeBody at routed
  split at routed
  next => cases routed
  next body modelAlias candidates accepted =>
    dsimp only at routed
    split at routed
    next => cases routed
    next chosenRoute _ chosen =>
      split at routed
      next => cases routed
      next prepared =>
        cases routed
        obtain ⟨candidate, -, pinned, rfl⟩ := (chooseCandidate_chooses chosen).given
        obtain ⟨data, rfl⟩ := prepareOutbound_permit prepared
        simp only [readBody, bind_eq_ok, okOr_eq_ok, mapError_eq_ok, pure, Except.pure,
          Except.ok.injEq, Prod.mk.injEq] at accepted
        obtain ⟨bytes, collected, body, parsed, _, named, _, -, rfl, rfl, rfl⟩ := accepted
        obtain ⟨members, object, rfl⟩ := RawBody.deserialize_eq_ok parsed
        refine ⟨bytes, collected, ⟨members, permit, data, object, named, rfl, prepared, ?_⟩, rfl⟩
        rintro _ sent ⟨⟩ ⟨⟩
        rfl

/-- One more input, which may be an exchange. -/
theorem Call.Owes.exchanges_append {call : Call} {json : SerdeJson Map} {bytes : List UInt8}
    {rest : List Input} (owes : call.Owes json bytes rest) (input : Input) :
    (rest ++ [input]).filterMap Input.exchange =
      (call.stage.completion.map Completion.exchange).toList ++ input.exchange.toList := by
  rw [List.filterMap_append, owes.exchanges]
  cases input <;> rfl

theorem Call.Owes.advance {call next : Call} {bytes : List UInt8} {rest : List Input}
    {input : Input} (owes : call.Owes codecs.json bytes rest)
    (moved : advanceCall app call input = some (after, next, effects)) :
    next.Owes codecs.json bytes (rest ++ [input]) := by
  have exchanges := owes.exchanges_append input
  obtain ⟨route, outbound, stage⟩ := call
  obtain ⟨members, permit, data, object, named, streaming, prepared, unsent⟩ := owes.body
  cases input with
  | exchanged exchange =>
      cases stage with
      | awaiting =>
          obtain ⟨result, -, made⟩ := Option.map_eq_some_iff.mp moved
          cases made
          exact ⟨owes.body, exchanges⟩
      | recording | responded | cancelled => cases moved
  | record =>
      cases stage with
      | recording completion remaining =>
          cases remaining with
          | nil =>
              cases moved
              exact ⟨owes.body, exchanges⟩
          | cons effect remaining =>
              cases moved
              exact ⟨owes.body, exchanges⟩
      | awaiting | responded | cancelled => cases moved
  | cancel =>
      cases stage with
      | awaiting =>
          cases moved
          exact ⟨owes.body, exchanges⟩
      | recording | responded | cancelled => cases moved
  | uploadFrame =>
      obtain ⟨body, -, made⟩ := Option.map_eq_some_iff.mp moved
      cases made
      refine ⟨⟨members, permit, data, object, named, streaming, prepared, ?_⟩,
        exchanges.trans (List.append_nil _)⟩
      rintro _ sent ⟨⟩ ⟨⟩
  | dropOutbound =>
      obtain ⟨body, -, made⟩ := Option.map_eq_some_iff.mp moved
      cases made
      refine ⟨⟨members, permit, data, object, named, streaming, prepared, ?_⟩,
        exchanges.trans (List.append_nil _)⟩
      rintro _ sent ⟨⟩
  | poll | collected => cases moved

theorem Phase.Traced.advance {phase next : Phase F} {inputs : List Input} {input : Input}
    (traced : phase.Traced codecs.json inputs)
    (moved : advancePhase codecs app request phase input = some (after, next, effects)) :
    next.Traced codecs.json (inputs ++ [input]) := by
  have moves := advancePhase_moves moved
  cases traced with
  | rejected | observed | cancelled => cases moves
  | received =>
      cases input with
      | poll =>
          cases moves with
          | observe response => exact .observed response _
          | refuse => exact .rejected _ _ _
          | reserve => exact .buffering _
          | leave => exact .cancelled _
      | cancel =>
          cases moved
          exact .cancelled _
      | collected | exchanged | record | uploadFrame | dropOutbound => cases moved
  | buffering permit =>
      cases input with
      | collected read =>
          simp only [advancePhase, advanceCollected, Option.some.injEq] at moved
          split at moved
          next =>
            cases moved
            exact .rejected _ _ _
          next routed =>
            cases moved
            obtain ⟨bytes, rfl, owes⟩ := routeBody_owes routed
            exact .called owes
      | cancel =>
          cases moved
          exact .cancelled _
      | poll | exchanged | record | uploadFrame | dropOutbound => cases moved
  | called owes =>
      obtain ⟨⟨_, call, _⟩, advanced, made⟩ := Option.map_eq_some_iff.mp moved
      cases made
      exact .called (owes.advance advanced)

end Traces

/-- The server, with the history of every request. -/
abbrev RecordedServer (F : Type) :=
  System (AppState F) (Recorded Request Input (Task F)) Effect

section Runs

variable {F Addr : Type} [Float64 F]

theorem run_traced {codecs : Codecs Map} {app : AppState F} {server : RecordedServer F}
    (run : Run (handler codecs).recorded app server) :
    ∀ recorded ∈ server.tasks, recorded.task.phase.Traced codecs.json recorded.inputs := by
  apply run.tasks_rule fun recorded => recorded.task.phase.Traced codecs.json recorded.inputs
  · intro request
    exact .received
  · intro shared next recorded after input effects traced moved
    obtain ⟨task, advanced, rfl⟩ := Handler.recorded_advance.mp moved
    exact traced.advance (advancePhase_of_advance advanced)

theorem run_recorded_ledger {codecs : Codecs Map} {app : AppState F} {server : RecordedServer F}
    (run : Run (handler codecs).recorded app server) {recorded : Recorded Request Input (Task F)}
    (member : recorded ∈ server.tasks) : ∃ done, Ledger app recorded.task.phase done := by
  have inside : recorded.task ∈ server.forget.tasks := List.mem_map_of_mem member
  obtain ⟨i, found⟩ := List.mem_iff_getElem?.mp inside
  exact ⟨_, run_ledger run.forget found⟩

/-- Whatever else the process serves, a request that is forwarded is its own client's: the bytes it
took are an object, whose `model` names the alias and whose `stream` the mode; the candidate is one
that the configuration lists for the alias, with the settings of its provider; what is sent to it
has the fields of the client, in their order, but for the model, which is the candidate's, and for
the labels of a provider that asks for them; and what the client is answered is made of the one
exchange that this request has taken. -/
theorem requests_translated [DecidableEq Addr] {codecs : Codecs Map} {IsValue : Text → Prop}
    (lawful : codecs.json.Lawful IsValue) {parseAddr : Text → Option Addr}
    {cgroupMemoryLimit : Option UInt64} {config : Config F} {app : AppState F}
    (started : boot parseAddr cgroupMemoryLimit config = .ok app) {server : RecordedServer F}
    (run : Run (handler codecs).recorded app server) :
    ∀ recorded ∈ server.tasks, ∀ call, recorded.task.phase = .called call →
      ∃ bytes members rest, recorded.inputs = .poll :: .collected (.ok bytes) :: rest ∧
        codecs.json.readObject bytes = .ok members ∧
        (last modelKey members).bind codecs.json.parseString = some call.route.modelAlias ∧
        call.route.isStreaming =
          ((last streamKey members).bind codecs.json.parseBool).getD false ∧
        (∃ listed, config.model.lookup call.route.modelAlias = some listed ∧
          ∃ candidate ∈ listed, Resolves config candidate call.route.candidate) ∧
        (∀ body data, call.outbound = some body → body.data = some data →
          ∃ fields, codecs.json.writeObject fields = .ok data ∧
            Translates codecs.json call.route.candidate members fields ∧
            (call.route.candidate.attributionLabels = none →
              codecs.json.readObject data = .ok fields)) ∧
        ∀ response, recorded.task.phase.response = some response →
          ∃ exchange result, rest.filterMap Input.exchange = [exchange] ∧
            forwardRequest call.route.candidate call.route.isStreaming app.budget.maxBodyBytes
              app.gcpTokenProvider exchange = some result ∧
            response = call.route.response ⟨exchange, result⟩ := by
  intro recorded member call called
  have traced := run_traced run recorded member
  obtain ⟨done, ledger⟩ := run_recorded_ledger run member
  generalize recorded.inputs = inputs at traced
  rw [called] at traced ledger ⊢
  cases traced with
  | @called _ bytes rest owes =>
      obtain ⟨members, permit, data, object, named, streaming, prepared, unsent⟩ := owes.body
      unfold RawBody.getAs at named streaming
      rw [RawBody.get_ofMembers] at named streaming
      refine ⟨bytes, members, rest, rfl, object, named, streaming, ?_, ?_, ?_⟩
      · obtain ⟨candidates, lookup, inside⟩ := ledger.routes call.route rfl
        obtain ⟨listed, found, related⟩ := fromConfig_resolves (boot_fromConfig started) lookup
        obtain ⟨candidate, asked, resolves⟩ := exists_related related.flip inside
        exact ⟨listed, found, candidate, asked, resolves⟩
      · intro body sent outbound taken
        rw [unsent body sent outbound taken]
        exact exists_translation lawful (lawful.values object) prepared
      · intro response answered
        obtain ⟨route, outbound, stage⟩ := call
        cases stage with
        | awaiting | recording | cancelled => cases answered
        | responded completion =>
            cases answered
            exact ⟨completion.exchange, completion.result, owes.exchanges,
              ledger.ended route completion rfl, rfl⟩

end Runs

section Plain

variable {F : Type} [Float64 F]

/-- A request is admitted and forwarded. -/
theorem run_forwards {codecs : Codecs Map} {app : AppState F} {server : RecordedServer F}
    (run : Run (handler codecs).recorded app server) {request : Request} {permit : Permit}
    {budget : BufferBudget}
    (admitted : admission codecs server.shared request = .admitted permit budget)
    {read : Except BodyError (List UInt8)} {route : Route} {outbound : OutboundBody}
    {rrState : RoundRobinState}
    (routed : routeBody codecs.json (server.shared.setBudget budget) request.affinityHeader permit
      read = (.forwarding route outbound, rrState)) :
    ∃ shared journal, shared.budget = budget ∧ shared.modelMap = server.shared.modelMap ∧
      Run (handler codecs).recorded app ⟨shared, server.tasks ++ [⟨request,
        [.poll, .collected read], request, .called ⟨route, some outbound, .awaiting⟩⟩],
        journal⟩ := by
  obtain ⟨_, reserved⟩ :=
    run.accept_advance (Handler.recorded_advance.mpr ⟨_, advance_admitted admitted, rfl⟩)
  obtain ⟨journal, forwarded⟩ :=
    reserved.last_advance (Handler.recorded_advance.mpr ⟨_, advance_forwarded routed, rfl⟩)
  refine ⟨_, journal, ?_, ?_, forwarded⟩
  · rfl
  · rfl

/-- What a plain request takes until it is forwarded. -/
def plainInputs : List Input := [.poll, .collected (.ok (plainBody "fast".toList).bytes)]

/-- A plain request is admitted and forwarded to the only candidate of its alias. -/
theorem run_calls {app : AppState F} {server : RecordedServer F}
    (run : Run (handler plainCodecs).recorded app server) {candidate : ResolvedCandidate}
    (lookup : server.shared.modelMap.get "fast".toList = some [candidate])
    (unlabelled : candidate.attributionLabels = none) {permit : Permit} {budget : BufferBudget}
    (admitted : admission plainCodecs server.shared plainRequest = .admitted permit budget) :
    ∃ data shared journal, shared.budget = budget ∧ shared.modelMap = server.shared.modelMap ∧
      Run (handler plainCodecs).recorded app ⟨shared, server.tasks ++ [⟨plainRequest, plainInputs,
        plainRequest, .called ⟨⟨"fast".toList, candidate, false, false⟩,
          some ⟨some data, some permit⟩, .awaiting⟩⟩], journal⟩ := by
  have buffered : (server.shared.setBudget budget).modelMap.get "fast".toList =
      some [candidate] := lookup
  obtain ⟨data, rrState, routed⟩ :=
    routeBody_plain SerdeJson.flat_lawful buffered unlabelled permit
  exact ⟨data, run_forwards run admitted routed⟩

end Plain

section Labelled

/-- A provider that asks for labels, and labels to send it. -/
noncomputable def labelledConfig : Config ℝ :=
  .ofProvider "vertex".toList { vertexAi := some ⟨"acme".toList, "global".toList, true⟩ }
    "fast".toList ["gemini".toList] (AList.singleton "team".toList "ml".toList)

theorem labelledConfig_validate :
    labelledConfig.validate some = (.ok () : Except (ConfigError ℝ Text) Unit) := by
  apply Config.ofProvider_validate
  · rfl
  · rfl
  · rfl

def temperatureKey : Text := "temperature".toList

/-- The client changes its mind about the model and the temperature, and has labels of its own. -/
def wordyMembers : List (Text × Text) :=
  [(temperatureKey, "0.5".toList), (modelKey, Json.quote "slow".toList),
    (labelsKey, Json.quote "mine".toList), (modelKey, Json.quote "fast".toList),
    (temperatureKey, "1".toList)]

theorem wordyMembers_flat : ∀ member ∈ wordyMembers, Json.FlatValue member.2 := by
  intro member inside
  simp only [wordyMembers, List.mem_cons, List.not_mem_nil, or_false] at inside
  rcases inside with rfl | rfl | rfl | rfl | rfl
  · exact .inr ⟨by decide, List.all_eq_true.mp (by decide)⟩
  · exact .inl ⟨_, Json.token_quote _⟩
  · exact .inl ⟨_, Json.token_quote _⟩
  · exact .inl ⟨_, Json.token_quote _⟩
  · exact .inr ⟨by decide, List.all_eq_true.mp (by decide)⟩

/-- The request is sent to the listed model with the temperature that the client said last. -/
theorem requests_translated_labelled :
    ∃ (app : AppState ℝ) (server : RecordedServer ℝ), ∃ recorded ∈ server.tasks,
      ∃ call data fields listed,
        boot (some : Text → Option Text) none labelledConfig = .ok app ∧
        Run (handler plainCodecs).recorded app server ∧
        recorded.inputs = [.poll, .collected (.ok (Json.compact wordyMembers).bytes)] ∧
        recorded.task.phase = .called call ∧ Resolves labelledConfig listed call.route.candidate ∧
        call.route.candidate.attributionLabels ≠ none ∧
        call.outbound.bind OutboundBody.data = some data ∧
        SerdeJson.flat.writeObject fields = .ok data ∧
        Translates SerdeJson.flat call.route.candidate wordyMembers fields ∧
        fields.lookup temperatureKey = some "1".toList := by
  have start : ∃ app candidate permit budget data,
      boot (some : Text → Option Text) none labelledConfig = .ok app ∧
      app.modelMap.get "fast".toList = some [candidate] ∧
      candidate.attributionLabels ≠ none ∧
      admission plainCodecs app plainRequest = .admitted permit budget ∧
      prepareOutbound SerdeJson.flat (.ofMembers wordyMembers) candidate.model
        candidate.attributionLabels (some permit) = .ok ⟨some data, some permit⟩ :=
    ⟨_, _, _, _, _, bind_eq_ok.mpr ⟨(), labelledConfig_validate, rfl⟩, rfl,
      Option.some_ne_none _, rfl, rfl⟩
  obtain ⟨app, candidate, permit, budget, data, started, lookup, labelled, admitted, prepared⟩ :=
    start
  have buffered : (app.setBudget budget).modelMap.get "fast".toList = some [candidate] := lookup
  obtain ⟨isStreaming, rrState, routed, -⟩ := routeBody_prepared SerdeJson.flat_lawful
    wordyMembers_flat rfl buffered prepared
  have idle : Run (handler plainCodecs).recorded app (.boot app) := .boot
  obtain ⟨shared, journal, -, -, run⟩ := run_forwards idle admitted routed
  obtain ⟨bytes, members, rest, inputs, object, -, -, ⟨_, -, listed, -, resolves⟩, sent, -⟩ :=
    requests_translated SerdeJson.flat_lawful started run _ (List.mem_singleton_self _) _ rfl
  obtain ⟨fields, written, translates, -⟩ := sent _ data rfl rfl
  have same : members = wordyMembers := by
    cases inputs
    exact Except.ok.inj
      (object.symm.trans (SerdeJson.flat_lawful.readObject_compact wordyMembers_flat))
  subst same
  refine ⟨app, _, _, List.mem_singleton_self _, _, data, fields, listed, started, run, rfl, rfl,
    resolves, labelled, rfl, written, translates, ?_⟩
  exact translates.others temperatureKey (by decide) fun same => absurd same (by decide)

end Labelled

end Sturnus
