import StratifiedSampling.Sampling.Config
import StratifiedSampling.Toml.Flat

/-! Settings of a sampler written as a flat TOML document. A setting that is left out has
its standard value; an entry that is no setting, or that holds the wrong kind of value,
is an error. -/

namespace StratifiedSampling.SamplerConfig

def unsigned? : Toml.Scalar → Option UInt64
  | .whole value => if 0 ≤ value then some (UInt64.ofNat value.toNat) else none
  | .text _ => none

def withEntry? (config : SamplerConfig) : String × Toml.Scalar → Option SamplerConfig
  | ("seed", value) => (unsigned? value).map fun seed => { config with seed := some seed }
  | ("staging_prefix", .text text) => some { config with stagingPrefix := text }
  | ("slow_threshold_ms", value) => (unsigned? value).map fun slowThreshold => { config with slowThreshold }
  | _ => none

def ofToml (text : String) : Except Error SamplerConfig :=
  match (Toml.read? text).bind fun entries => entries.foldlM withEntry? standard with
  | none => .error (.invalidArgument "invalid sampler config")
  | some config => do
    config.validate
    return config

end StratifiedSampling.SamplerConfig
