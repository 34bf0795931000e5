import StratifiedSampling.Sampling.Config
import StratifiedSampling.Text.Uppercase
import StratifiedSampling.Value.Basic

/-! Variables of a session, named without regard to case. Three of them override the
settings of the sampler; a value of the wrong type is reported when the settings are
asked for, not when the variable is set. -/

namespace StratifiedSampling

structure SessionVariables where
  values : List (String × Value)

namespace SessionVariables

def empty : SessionVariables := ⟨[]⟩

def get? (assigned : SessionVariables) (name : String) : Option Value :=
  (assigned.values.find? fun entry => entry.1 == Text.uppercase name).map Prod.snd

def remove (assigned : SessionVariables) (name : String) : SessionVariables :=
  ⟨assigned.values.filter fun entry => entry.1 != Text.uppercase name⟩

def set (assigned : SessionVariables) (name : String) (value : Value) : SessionVariables :=
  ⟨(Text.uppercase name, value) :: (assigned.remove name).values⟩

def seedVariable : String := "STRATA_SEED"

def stagingPrefixVariable : String := "STRATA_STAGING_PREFIX"

def slowThresholdVariable : String := "STRATA_SLOW_THRESHOLD_MS"

def wrongValue (variableName expected : String) (value : Value) : Error :=
  .invalidArgument (variableName ++ " must be " ++ expected ++ ", got " ++ value.describe)

/-- A NULL clears the seed; a number gives it by its bits, so that every seed can be set. -/
def seed (assigned : SessionVariables) (default : Option UInt64) : Except Error (Option UInt64) :=
  match assigned.get? seedVariable with
  | none => .ok default
  | some .null => .ok none
  | some (.int64 value) => .ok (some value.toUInt64)
  | some value => .error (wrongValue seedVariable "an integer" value)

def stagingPrefix (assigned : SessionVariables) (default : String) : Except Error String :=
  match assigned.get? stagingPrefixVariable with
  | none => .ok default
  | some (.string text) => .ok text
  | some value => .error (wrongValue stagingPrefixVariable "a string" value)

def slowThreshold (assigned : SessionVariables) (default : UInt64) : Except Error UInt64 :=
  match assigned.get? slowThresholdVariable with
  | none => .ok default
  | some (.int64 value) =>
    if 0 ≤ value.toInt then .ok value.toUInt64
    else .error (wrongValue slowThresholdVariable "a non-negative integer" (.int64 value))
  | some value => .error (wrongValue slowThresholdVariable "a non-negative integer" value)

/-- The settings with the variables applied; the first variable at fault is reported. -/
def samplerConfig (assigned : SessionVariables) (base : SamplerConfig) : Except Error SamplerConfig := do
  let seed ← assigned.seed base.seed
  let stagingPrefix ← assigned.stagingPrefix base.stagingPrefix
  let slowThreshold ← assigned.slowThreshold base.slowThreshold
  let config : SamplerConfig := { seed, stagingPrefix, slowThreshold }
  config.validate
  return config

end SessionVariables

end StratifiedSampling
