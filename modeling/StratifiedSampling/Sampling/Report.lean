import StratifiedSampling.Sampling.Plan

/-! What is told about a sample. -/

namespace StratifiedSampling

structure Duration where
  seconds : UInt64
  nanoseconds : UInt32
  deriving DecidableEq

namespace Duration

def zero : Duration := ⟨0, 0⟩

/-- Nanoseconds of whole seconds are carried, if the seconds still fit. -/
def ofParts? (seconds nanoseconds : Nat) : Option Duration :=
  let carried := seconds + nanoseconds / 1000000000
  if carried < UInt64.size then some ⟨UInt64.ofNat carried, UInt32.ofNat (nanoseconds % 1000000000)⟩ else none

def wholeMilliseconds (duration : Duration) : Nat :=
  duration.seconds.toNat * 1000 + duration.nanoseconds.toNat / 1000000

def wholeMicroseconds (duration : Duration) : Nat :=
  duration.seconds.toNat * 1000000 + duration.nanoseconds.toNat / 1000

end Duration

structure SampleReport where
  output : RelationName
  strategy : SamplingStrategy
  /-- The seed of the run; the same seed makes the same sample again. -/
  seed : UInt64
  /-- The number of strata in the source. -/
  strata : Nat
  rowsRead : Nat
  rowsWritten : Nat
  elapsed : Duration
  deriving DecidableEq

def SampleReport.ratio (report : SampleReport) : Double :=
  if report.rowsRead = 0 then .zero else .quotient report.rowsWritten report.rowsRead

end StratifiedSampling
