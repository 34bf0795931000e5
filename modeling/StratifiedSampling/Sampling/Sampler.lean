import StratifiedSampling.Sampling.Config
import StratifiedSampling.Sampling.Metrics

/-! One run of the sampler. Nothing is created before the request is valid and the strata
are counted, and whatever happens after that, the staging area is closed at the end. -/

namespace StratifiedSampling

/-- What a run takes from the world: a token of its own, a seed in case none is fixed,
and the time it takes. -/
structure Circumstances where
  token : Token
  freshSeed : UInt64
  elapsed : Duration

structure Sampler where
  config : SamplerConfig
  metrics : SamplingMetrics

namespace Sampler

def start (config : SamplerConfig) : Sampler :=
  ⟨config, .start config.slowThreshold⟩

/-- A sampler that goes on counting where another left off, by its own threshold. -/
def withMetrics (config : SamplerConfig) (metrics : SamplingMetrics) : Sampler :=
  ⟨config, metrics.withThreshold config.slowThreshold⟩

def prepare (config : SamplerConfig) (request : SampleRequest) (freshSeed : UInt64) : Attempt SamplePlan := do
  Attempt.settled config.validate
  let valid ← request.validate
  let strataSizes ← Attempt.groupCounts valid.source valid.strata.columns
  return ⟨valid, config.seed.getD freshSeed, strataSizes⟩

/-- Runs a plan in a staging area of its own, commits it if it succeeds, and closes the area. -/
def carryOut (config : SamplerConfig) (plan : SamplePlan) (token : Token) : Attempt Nat :=
  ExceptT.mk (Program.bind
    ((plan.execute (.ofRequest plan.request.withReplacement)).run (.start config.stagingPrefix token))
    fun (outcome, area) =>
      let area := if outcome.toOption.isSome then area.commit else area
      Program.bind area.close fun _ => .done outcome)

def report (plan : SamplePlan) (rowsWritten : Nat) (elapsed : Duration) : SampleReport where
  output := plan.request.output
  strategy := .ofRequest plan.request.withReplacement
  seed := plan.seed
  strata := plan.strataSizes.length
  rowsRead := plan.totalRows
  rowsWritten
  elapsed

def run (config : SamplerConfig) (request : SampleRequest) (circumstances : Circumstances) :
    Attempt SampleReport := do
  let plan ← prepare config request circumstances.freshSeed
  let rowsWritten ← carryOut config plan circumstances.token
  return report plan rowsWritten circumstances.elapsed

/-- Runs a request on a backend and counts it. -/
def sample (sampler : Sampler) (backend : Backend σ) (request : SampleRequest)
    (circumstances : Circumstances) (state : σ) : Except Error SampleReport × Sampler × σ :=
  let (outcome, state) := backend.run (run sampler.config request circumstances).run state
  let rows := outcome.toOption.map SampleReport.rowsWritten
  (outcome, { sampler with metrics := sampler.metrics.record circumstances.elapsed rows }, state)

end Sampler

end StratifiedSampling
