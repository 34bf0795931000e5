import StratifiedSampling.QueryResult
import StratifiedSampling.Sampling.Sampler
import StratifiedSampling.Session.Variables

/-! Sessions. An engine holds the settings that its sessions start from; a session has a
catalog, variables and counters of its own. A sample whose settings are at fault fails
before a sampler runs, and is not counted. -/

namespace StratifiedSampling

structure Engine where
  config : SamplerConfig
  backendSettings : BackendSettings

def Engine.standard : Engine := ⟨.standard, .standard⟩

structure Session where
  config : SamplerConfig
  backendSettings : BackendSettings
  catalog : Catalog
  assigned : SessionVariables
  metrics : SamplingMetrics

def Engine.session (engine : Engine) : Session where
  config := engine.config
  backendSettings := engine.backendSettings
  catalog := .empty
  assigned := .empty
  metrics := .start engine.config.slowThreshold

namespace Session

def standard : Session := Engine.standard.session

def samplerConfig (session : Session) : Except Error SamplerConfig :=
  session.assigned.samplerConfig session.config

def createTable (session : Session) (name : String) (table : Table) : Except Error Session := do
  let name ← RelationName.ofString name
  let catalog ← session.catalog.insert name table
  return { session with catalog }

def table (session : Session) (name : String) : Except Error Table := do
  session.catalog.table (← RelationName.ofString name)

def query (session : Session) (name : String) : Except Error QueryResult := do
  return .ofTable (← session.table name)

/-- Removes a relation; it is no error if there is none. -/
def dropTable (session : Session) (name : String) : Except Error Session := do
  let name ← RelationName.ofString name
  return { session with catalog := session.catalog.drop name }

def tableExists (session : Session) (name : String) : Except Error Bool := do
  return session.catalog.contains (← RelationName.ofString name)

def tableNames (session : Session) : List String :=
  session.catalog.names

def stratumCounts (session : Session) (name : String) (keys : List String) : Except Error (List GroupCount) := do
  let name ← RelationName.ofString name
  (← session.catalog.table name).groupCounts keys

def setVariable (session : Session) (name : String) (value : Value) : Session :=
  { session with assigned := session.assigned.set name value }

def variableValue? (session : Session) (name : String) : Option Value :=
  session.assigned.get? name

def removeVariable (session : Session) (name : String) : Session :=
  { session with assigned := session.assigned.remove name }

def resetMetrics (session : Session) : Session :=
  { session with metrics := session.metrics.reset }

def sample (session : Session) (request : SampleRequest) (circumstances : Circumstances) :
    Except Error SampleReport × Session :=
  match session.samplerConfig with
  | .error error => (.error error, session)
  | .ok config =>
    let sampler := Sampler.withMetrics config session.metrics
    let (outcome, sampler, catalog) := sampler.sample Catalog.backend request circumstances session.catalog
    (outcome, { session with catalog, metrics := sampler.metrics })

/-- Runs requests one after the other; one that fails does not stop the others. -/
def sampleBatch (session : Session) : List (SampleRequest × Circumstances) →
    List (Except Error SampleReport) × Session
  | [] => ([], session)
  | (request, circumstances) :: rest =>
    let (outcome, session) := session.sample request circumstances
    let (outcomes, session) := session.sampleBatch rest
    (outcome :: outcomes, session)

end Session

end StratifiedSampling
