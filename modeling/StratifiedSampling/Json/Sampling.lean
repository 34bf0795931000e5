import StratifiedSampling.Json.Relations
import StratifiedSampling.Sampling.Config
import StratifiedSampling.Sampling.Report

/-! The JSON form of what goes into a sampler and comes out of it. Settings may leave out
any member but allow no others; a request may leave out all that has a standard meaning. -/

namespace StratifiedSampling

open JsonForm

instance : JsonForm Strata where
  write
    | .global => .string "Global"
    | .keys columns => Tagged.write "Keys" (write columns)
  read? tree := do
    let tagged ← Tagged.read? tree
    match tagged.name with
    | "Global" => tagged.bare? .global
    | "Keys" => tagged.content?.map .keys
    | _ => none

instance : JsonForm SamplingStrategy where
  write strategy := .string strategy.name
  read? tree := do
    let tagged ← Tagged.read? tree
    let strategies : List SamplingStrategy := [.withoutReplacement, .withReplacement]
    let strategy ← strategies.find? fun strategy => strategy.name == tagged.name
    tagged.bare? strategy

instance : JsonForm SampleRequest where
  write request := .object [
    ("source", write request.source), ("output", write request.output), ("proportion", write request.proportion),
    ("keys", write request.keys), ("targets", write request.targets),
    ("with_replacement", write request.withReplacement)]
  read? tree := do
    let slots ← Slots.open? ["source", "output", "proportion", "keys", "targets", "with_replacement"] tree
    return {
      source := ← slots.get "source"
      output := ← slots.get "output"
      proportion := ← slots.get "proportion"
      keys := ← slots.getD "keys" none
      targets := ← slots.getD "targets" none
      withReplacement := ← slots.getD "with_replacement" false }

instance : JsonForm SamplerConfig where
  write config := .object [
    ("seed", write config.seed), ("staging_prefix", write config.stagingPrefix),
    ("slow_threshold_ms", write config.slowThreshold)]
  read? tree := do
    let slots ← Slots.closed? ["seed", "staging_prefix", "slow_threshold_ms"] tree
    let standard := SamplerConfig.standard
    return {
      seed := ← slots.getD "seed" standard.seed
      stagingPrefix := ← slots.getD "staging_prefix" standard.stagingPrefix
      slowThreshold := ← slots.getD "slow_threshold_ms" standard.slowThreshold }

/-- Nanoseconds of more than a second are carried, up to what 32 bits hold. -/
instance : JsonForm Duration where
  write duration := .object [
    ("secs", write duration.seconds), ("nanos", .whole duration.nanoseconds.toNat)]
  read? tree := do
    let slots ← Slots.closed? ["secs", "nanos"] tree
    let seconds : Nat ← slots.get "secs"
    let nanoseconds : Nat ← slots.get "nanos"
    if nanoseconds < UInt32.size then Duration.ofParts? seconds nanoseconds else none

instance : JsonForm SampleReport where
  write report := .object [
    ("output", write report.output), ("strategy", write report.strategy), ("seed", write report.seed),
    ("strata", write report.strata), ("rows_read", write report.rowsRead),
    ("rows_written", write report.rowsWritten), ("elapsed", write report.elapsed)]
  read? tree := do
    let slots ← Slots.open?
      ["output", "strategy", "seed", "strata", "rows_read", "rows_written", "elapsed"] tree
    return {
      output := ← slots.get "output"
      strategy := ← slots.get "strategy"
      seed := ← slots.get "seed"
      strata := ← slots.get "strata"
      rowsRead := ← slots.get "rows_read"
      rowsWritten := ← slots.get "rows_written"
      elapsed := ← slots.get "elapsed" }

end StratifiedSampling
