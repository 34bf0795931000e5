import StratifiedSampling.Sampling.Report

/-! Counters over the runs of a sampler. They are 64 bits wide and wrap around, and so
do the milliseconds and microseconds of a single run before they are used. -/

namespace StratifiedSampling

structure SamplingMetrics where
  invocations : UInt64
  totalMicroseconds : UInt64
  slow : UInt64
  errors : UInt64
  rowsWritten : UInt64
  /-- Milliseconds from which on a run counts as slow. -/
  slowThreshold : UInt64
  deriving DecidableEq

namespace SamplingMetrics

def start (slowThreshold : UInt64) : SamplingMetrics :=
  ⟨0, 0, 0, 0, 0, slowThreshold⟩

def withThreshold (metrics : SamplingMetrics) (slowThreshold : UInt64) : SamplingMetrics :=
  { metrics with slowThreshold }

def isSlow (metrics : SamplingMetrics) (duration : Duration) : Bool :=
  decide (metrics.slowThreshold ≤ UInt64.ofNat duration.wholeMilliseconds)

/-- Counts a run; one that failed has no rows. -/
def record (metrics : SamplingMetrics) (duration : Duration) (rows : Option Nat) : SamplingMetrics :=
  { metrics with
    invocations := metrics.invocations + 1
    totalMicroseconds := metrics.totalMicroseconds + UInt64.ofNat duration.wholeMicroseconds
    slow := if metrics.isSlow duration then metrics.slow + 1 else metrics.slow
    errors := if rows.isNone then metrics.errors + 1 else metrics.errors
    rowsWritten := metrics.rowsWritten + UInt64.ofNat (rows.getD 0) }

def averageMicroseconds (metrics : SamplingMetrics) : UInt64 :=
  if metrics.invocations = 0 then 0 else metrics.totalMicroseconds / metrics.invocations

def reset (metrics : SamplingMetrics) : SamplingMetrics :=
  start metrics.slowThreshold

end SamplingMetrics

end StratifiedSampling
