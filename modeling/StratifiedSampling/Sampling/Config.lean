import StratifiedSampling.Error
import StratifiedSampling.Text.Blank

/-! Settings of a sampler. The staging prefix may not be blank, because it begins the
names of the relations that a run stages. -/

namespace StratifiedSampling

structure SamplerConfig where
  /-- The seed of every run; without one every run takes a fresh seed. -/
  seed : Option UInt64
  stagingPrefix : String
  /-- Runs that take at least this many milliseconds count as slow. -/
  slowThreshold : UInt64
  deriving DecidableEq

namespace SamplerConfig

def standard : SamplerConfig := ⟨none, "__strata_stage", 1000⟩

def validate (config : SamplerConfig) : Except Error Unit :=
  if Text.trim config.stagingPrefix = "" then .error (.invalidArgument "staging_prefix must not be blank")
  else .ok ()

end SamplerConfig

end StratifiedSampling
