import Mathlib.Algebra.Ring.Nat
import StratifiedSampling.Sampling.Metrics

/-! The counters of the metrics over any calls. They are those of the runs recorded since the last
reset, each judged by the threshold that was in force. The milliseconds of a run are cut to 64 bits
before they are compared, so that a run of 2^64 milliseconds or more can be overlooked. -/

namespace StratifiedSampling

namespace Duration

def wholeNanoseconds (duration : Duration) : Nat :=
  duration.seconds.toNat * 1000000000 + duration.nanoseconds.toNat

theorem wholeMilliseconds_mono {shorter longer : Duration}
    (order : shorter.wholeNanoseconds ≤ longer.wholeNanoseconds) :
    shorter.wholeMilliseconds ≤ longer.wholeMilliseconds := by
  have whole : ∀ duration : Duration, duration.wholeMilliseconds = duration.wholeNanoseconds / 1000000 := by
    intro duration
    unfold wholeMilliseconds wholeNanoseconds
    generalize duration.seconds.toNat = seconds
    omega
  rw [whole, whole]
  exact Nat.div_le_div_right order

end Duration

inductive MetricsCall where
  | record (duration : Duration) (rows : Option Nat)
  | setThreshold (milliseconds : UInt64)
  | reset
  deriving DecidableEq

namespace MetricsCall

def run : MetricsCall → SamplingMetrics → SamplingMetrics
  | record duration rows, metrics => metrics.record duration rows
  | setThreshold milliseconds, metrics => metrics.withThreshold milliseconds
  | reset, metrics => metrics.reset

def runAll : List MetricsCall → SamplingMetrics → SamplingMetrics
  | [], metrics => metrics
  | call :: rest, metrics => runAll rest (call.run metrics)

end MetricsCall

/-- A run as it was recorded, and the threshold in force at that time. -/
structure RecordedRun where
  duration : Duration
  rows : Option Nat
  threshold : UInt64

namespace RecordedRun

def isSlow (run : RecordedRun) : Bool :=
  decide (run.threshold.toNat ≤ run.duration.wholeMilliseconds)

/-- Whether a run is slow, but is not once its milliseconds are cut to 64 bits. -/
def isOverlooked (run : RecordedRun) : Bool :=
  run.isSlow && decide (run.duration.wholeMilliseconds % UInt64.size < run.threshold.toNat)

theorem le_of_isOverlooked {run : RecordedRun} (overlooked : run.isOverlooked = true) :
    UInt64.size ≤ run.duration.wholeMilliseconds := by
  unfold isOverlooked isSlow at overlooked
  rw [Bool.and_eq_true, decide_eq_true_iff, decide_eq_true_iff] at overlooked
  refine Nat.le_of_not_lt fun short => ?_
  rw [Nat.mod_eq_of_lt short] at overlooked
  omega

end RecordedRun

/-- The runs recorded after the last reset. Thresholds outlive a reset. -/
def runsSinceReset (threshold : UInt64) : List MetricsCall → List RecordedRun
  | [] => []
  | .record duration rows :: rest =>
    if .reset ∈ rest then runsSinceReset threshold rest
    else ⟨duration, rows, threshold⟩ :: runsSinceReset threshold rest
  | .setThreshold milliseconds :: rest => runsSinceReset milliseconds rest
  | .reset :: rest => runsSinceReset threshold rest

namespace SamplingMetrics

theorem isSlow_eq (metrics : SamplingMetrics) (duration : Duration) :
    metrics.isSlow duration = decide (metrics.slowThreshold.toNat ≤ duration.wholeMilliseconds % UInt64.size) := by
  have cut : (UInt64.ofNat duration.wholeMilliseconds).toNat = duration.wholeMilliseconds % UInt64.size :=
    UInt64.toNat_ofNat'
  simp only [isSlow, UInt64.le_iff_toNat_le, cut]

/-- A run is counted as slow if it is, unless it is overlooked. -/
theorem isSlow_add (metrics : SamplingMetrics) (duration : Duration) (rows : Option Nat) :
    let run : RecordedRun := ⟨duration, rows, metrics.slowThreshold⟩
    ((if metrics.isSlow duration then 1 else 0) + if run.isOverlooked then 1 else 0) = if run.isSlow then 1 else 0 := by
  have cut := Nat.mod_le duration.wholeMilliseconds UInt64.size
  unfold RecordedRun.isOverlooked RecordedRun.isSlow
  rw [isSlow_eq]
  by_cases counted : metrics.slowThreshold.toNat ≤ duration.wholeMilliseconds % UInt64.size
  · have slow := Nat.le_trans counted cut
    simp [counted, slow]
  · simp [counted, Nat.lt_of_not_le counted]

theorem isSlow_mono {metrics : SamplingMetrics} {shorter longer : Duration}
    (order : shorter.wholeNanoseconds ≤ longer.wholeNanoseconds) (fits : longer.wholeMilliseconds < UInt64.size)
    (slow : metrics.isSlow shorter = true) : metrics.isSlow longer = true := by
  have grown := Duration.wholeMilliseconds_mono order
  rw [isSlow_eq, decide_eq_true_iff] at slow ⊢
  rw [Nat.mod_eq_of_lt fits]
  rw [Nat.mod_eq_of_lt (Nat.lt_of_le_of_lt grown fits)] at slow
  exact Nat.le_trans slow grown

/-- Counters that have gone on by some runs. -/
structure Tallied (before : SamplingMetrics) (runs : List RecordedRun) (after : SamplingMetrics) : Prop where
  invocations : after.invocations = before.invocations + UInt64.ofNat runs.length
  errors : after.errors = before.errors + UInt64.ofNat (runs.countP fun run => run.rows.isNone)
  rowsWritten : after.rowsWritten = before.rowsWritten + UInt64.ofNat (runs.map fun run => run.rows.getD 0).sum
  totalMicroseconds : after.totalMicroseconds =
    before.totalMicroseconds + UInt64.ofNat (runs.map fun run => run.duration.wholeMicroseconds).sum
  slow : after.slow + UInt64.ofNat (runs.countP RecordedRun.isOverlooked) =
    before.slow + UInt64.ofNat (runs.countP RecordedRun.isSlow)

namespace Tallied

theorem none (metrics : SamplingMetrics) : Tallied metrics [] metrics :=
  ⟨by simp, by simp, by simp, by simp, by simp⟩

theorem of_withThreshold {before after : SamplingMetrics} {milliseconds : UInt64} {runs : List RecordedRun}
    (tallied : Tallied (before.withThreshold milliseconds) runs after) : Tallied before runs after :=
  ⟨tallied.invocations, tallied.errors, tallied.rowsWritten, tallied.totalMicroseconds, tallied.slow⟩

theorem cons {metrics after : SamplingMetrics} {duration : Duration} {rows : Option Nat} {runs : List RecordedRun}
    (tallied : Tallied (metrics.record duration rows) runs after) :
    Tallied metrics (⟨duration, rows, metrics.slowThreshold⟩ :: runs) after where
  invocations := by
    rw [tallied.invocations, List.length_cons, Nat.add_comm, UInt64.ofNat_add, ← UInt64.add_assoc]
    rfl
  errors := by
    rw [tallied.errors, List.countP_cons, Nat.add_comm, UInt64.ofNat_add, ← UInt64.add_assoc]
    cases rows with
    | none => rfl
    | some rows => exact congrArg (· + _) (UInt64.add_zero _).symm
  rowsWritten := by
    rw [tallied.rowsWritten, List.map_cons, List.sum_cons, UInt64.ofNat_add, ← UInt64.add_assoc]
    rfl
  totalMicroseconds := by
    rw [tallied.totalMicroseconds, List.map_cons, List.sum_cons, UInt64.ofNat_add, ← UInt64.add_assoc]
    rfl
  slow := by
    have here := metrics.isSlow_add duration rows
    have counted : (metrics.record duration rows).slow =
        metrics.slow + UInt64.ofNat (if metrics.isSlow duration then 1 else 0) := by
      unfold record
      dsimp only
      split
      · rfl
      · exact (UInt64.add_zero _).symm
    rw [List.countP_cons, List.countP_cons, ← here, UInt64.ofNat_add, UInt64.ofNat_add, UInt64.ofNat_add,
      ← UInt64.add_assoc, tallied.slow, counted]
    ac_rfl

end Tallied

end SamplingMetrics

namespace MetricsCall

/-- Without a reset the counters go on from where they were, with one from zero. -/
theorem runAll_tallied (calls : List MetricsCall) (metrics : SamplingMetrics) :
    SamplingMetrics.Tallied (if .reset ∈ calls then .start metrics.slowThreshold else metrics)
      (runsSinceReset metrics.slowThreshold calls) (runAll calls metrics) := by
  induction calls generalizing metrics with
  | nil => exact .none metrics
  | cons call rest ih =>
    -- If a reset is still to come, the counters do not remember this call, only the threshold does.
    have later := ih (call.run metrics)
    cases call with
    | record duration rows =>
      rw [runsSinceReset]
      by_cases again : .reset ∈ rest
      · rw [if_pos again] at later ⊢
        rw [if_pos (List.mem_cons_of_mem _ again)]
        exact later
      · rw [if_neg again] at later ⊢
        rw [if_neg (by simpa using again)]
        exact later.cons
    | setThreshold milliseconds =>
      rw [runsSinceReset]
      by_cases again : .reset ∈ rest
      · rw [if_pos again] at later
        rw [if_pos (List.mem_cons_of_mem _ again)]
        exact SamplingMetrics.Tallied.of_withThreshold later
      · rw [if_neg again] at later
        rw [if_neg (by simpa using again)]
        exact later.of_withThreshold
    | reset =>
      rw [runsSinceReset, if_pos List.mem_cons_self]
      have zero : (if .reset ∈ rest then .start (reset.run metrics).slowThreshold else reset.run metrics) =
          SamplingMetrics.start metrics.slowThreshold := ite_self _
      rw [zero] at later
      exact later

end MetricsCall

/-- Whatever is recorded, and however the threshold is set and the counters are reset, the counters are
those of the runs since the last reset, cut to 64 bits. As slow count all runs that took as long
as their threshold in whole milliseconds, except those that are overlooked: they took 2^64 milliseconds
or more. Up to that length a longer run is slow if a shorter one is. -/
theorem slow_runs_counted (threshold : UInt64) (calls : List MetricsCall) :
    let metrics := MetricsCall.runAll calls (.start threshold)
    let runs := runsSinceReset threshold calls
    metrics.invocations = UInt64.ofNat runs.length ∧
      metrics.errors = UInt64.ofNat (runs.countP fun run => run.rows.isNone) ∧
      metrics.rowsWritten = UInt64.ofNat (runs.map fun run => run.rows.getD 0).sum ∧
      metrics.totalMicroseconds = UInt64.ofNat (runs.map fun run => run.duration.wholeMicroseconds).sum ∧
      metrics.slow + UInt64.ofNat (runs.countP RecordedRun.isOverlooked) =
        UInt64.ofNat (runs.countP RecordedRun.isSlow) ∧
      (∀ run : RecordedRun, run.isOverlooked = true → UInt64.size ≤ run.duration.wholeMilliseconds) ∧
      ∀ (metrics : SamplingMetrics) (shorter longer : Duration),
        shorter.wholeNanoseconds ≤ longer.wholeNanoseconds → longer.wholeMilliseconds < UInt64.size →
          metrics.isSlow shorter = true → metrics.isSlow longer = true := by
  have start : (if .reset ∈ calls then SamplingMetrics.start threshold else .start threshold) = .start threshold :=
    ite_self _
  have tallied := MetricsCall.runAll_tallied calls (.start threshold)
  change SamplingMetrics.Tallied (if .reset ∈ calls then .start threshold else .start threshold) _ _ at tallied
  rw [start] at tallied
  have zero : ∀ count : UInt64, 0 + count = count := fun count => UInt64.zero_add count
  exact ⟨tallied.invocations.trans (zero _), tallied.errors.trans (zero _), tallied.rowsWritten.trans (zero _),
    tallied.totalMicroseconds.trans (zero _), tallied.slow.trans (zero _),
    fun _ => RecordedRun.le_of_isOverlooked, fun _ _ _ => SamplingMetrics.isSlow_mono⟩

/-- A run of 584 million years is not counted as slow, though a run of one second is. -/
theorem long_run_overlooked :
    let long : Duration := ⟨18446744073709552, 0⟩
    let calls : List MetricsCall := [.record long (some 1)]
    (runsSinceReset 1000 calls).countP RecordedRun.isSlow = 1 ∧
      (MetricsCall.runAll calls (.start 1000)).slow = 0 ∧
      Duration.wholeNanoseconds ⟨1, 0⟩ ≤ long.wholeNanoseconds ∧
      (SamplingMetrics.start 1000).isSlow ⟨1, 0⟩ = true ∧ (SamplingMetrics.start 1000).isSlow long = false := by
  decide

end StratifiedSampling
