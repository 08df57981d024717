import Sturnus.Server.Moves

/-!
# Starting the server

`main` builds the state every handler shares from an accepted configuration.
-/

namespace Sturnus

open Foundation

variable {F Addr : Type} [Float64 F] [DecidableEq Addr]

/-- The label triple of an entry of the model map. -/
def upstreamLabels (entry : Text × ResolvedCandidate) : UpstreamLabels :=
  ⟨entry.1, entry.2.providerName, entry.2.model⟩

/-- From the configuration to the shared state; `load` has validated it. -/
def boot (parseAddr : Text → Option Addr) (cgroupMemoryLimit : Option UInt64)
    (config : Config F) : Except (ConfigError F Addr) (AppState F) := do
  config.validate parseAddr
  let tracker := Tracker.new config.routing.ewmaAlpha config.routing.errorThreshold
  let (modelMap, tracker) ← fromConfig config tracker
  let needsGcp := config.provider.entries.any fun entry => entry.2.resolvedKind = .gcpAdc
  return {
    modelMap := modelMap
    tracker := tracker
    rrState := .ofAliases config.model.keys
    exploitK := config.routing.exploitK
    gcpTokenProvider := if needsGcp then some {} else none
    budget := .new (config.routing.bufferBudgetBytes cgroupMemoryLimit).1
      config.routing.maxBodyBytes
    metrics := Metrics.new.initZero (modelMap.iter.map upstreamLabels)
    shuttingDown := false }

/-- What the proofs use of the state a configuration boots into. -/
structure Booted (config : Config F) (app : AppState F) : Prop where
  wired : ∃ dedup, app.modelMap.Registered config
    (.new config.routing.ewmaAlpha config.routing.errorThreshold) ⟨dedup, app.tracker⟩
  counters : app.rrState = .ofAliases config.model.keys
  metrics : app.metrics = Metrics.new.initZero (app.modelMap.iter.map upstreamLabels)

theorem booted_of_boot {parseAddr : Text → Option Addr} {cgroupMemoryLimit : Option UInt64}
    {config : Config F} {app : AppState F}
    (started : boot parseAddr cgroupMemoryLimit config = .ok app) : Booted config app := by
  obtain ⟨_, -, remaining⟩ := bind_eq_ok.mp started
  obtain ⟨⟨modelMap, tracker⟩, accepted, result⟩ := bind_eq_ok.mp remaining
  cases result
  exact {
    wired := (fromConfig_registered accepted).1
    counters := rfl
    metrics := rfl }

theorem boot_fromConfig {parseAddr : Text → Option Addr} {cgroupMemoryLimit : Option UInt64}
    {config : Config F} {app : AppState F}
    (started : boot parseAddr cgroupMemoryLimit config = .ok app) :
    (fromConfig config (.new config.routing.ewmaAlpha config.routing.errorThreshold) :
      Except (ConfigError F Addr) _) = .ok (app.modelMap, app.tracker) := by
  obtain ⟨_, -, remaining⟩ := bind_eq_ok.mp started
  obtain ⟨⟨modelMap, tracker⟩, accepted, result⟩ := bind_eq_ok.mp remaining
  cases result
  exact accepted

theorem boot_budget {parseAddr : Text → Option Addr} {cgroupMemoryLimit : Option UInt64}
    {config : Config F} {app : AppState F}
    (started : boot parseAddr cgroupMemoryLimit config = .ok app) :
    app.budget = .new (config.routing.bufferBudgetBytes cgroupMemoryLimit).1
      config.routing.maxBodyBytes := by
  obtain ⟨_, -, remaining⟩ := bind_eq_ok.mp started
  obtain ⟨⟨modelMap, tracker⟩, -, result⟩ := bind_eq_ok.mp remaining
  cases result
  rfl

end Sturnus
