import Mathlib.Algebra.Ring.Nat
import StratifiedSampling.Proofs.SessionCalls

/-! The counters of a session. Every run of the sampler is counted, with its rows or as an
error. A request whose settings are at fault never comes to a run, and is the only kind
that fails without being counted. -/

namespace StratifiedSampling

def failures (outcomes : List (Except Error SampleReport)) : Nat :=
  outcomes.countP fun outcome => outcome.toOption.isNone

def rowsOf (outcome : Except Error SampleReport) : Nat :=
  (outcome.toOption.map SampleReport.rowsWritten).getD 0

/-- Counters that have gone on by some outcomes, except for failures that were turned away. -/
structure Counted (before : SamplingMetrics) (turnedAway : Nat) (outcomes : List (Except Error SampleReport))
    (after : SamplingMetrics) : Prop where
  failed : turnedAway ≤ failures outcomes
  invocations : after.invocations = before.invocations + UInt64.ofNat (outcomes.length - turnedAway)
  errors : after.errors = before.errors + UInt64.ofNat (failures outcomes - turnedAway)
  rowsWritten : after.rowsWritten = before.rowsWritten + UInt64.ofNat (outcomes.map rowsOf).sum

namespace Counted

variable {before middle after : SamplingMetrics} {turned others : Nat} {outcomes rest : List (Except Error SampleReport)}

theorem none (metrics : SamplingMetrics) : Counted metrics 0 [] metrics :=
  ⟨Nat.le_refl 0, by simp, by simp [failures], by simp⟩

theorem append (first : Counted before turned outcomes middle) (second : Counted middle others rest after) :
    Counted before (turned + others) (outcomes ++ rest) after := by
  have split : failures (outcomes ++ rest) = failures outcomes + failures rest := List.countP_append
  have firstBound : failures outcomes ≤ outcomes.length := List.countP_le_length
  have secondBound : failures rest ≤ rest.length := List.countP_le_length
  have firstFailed := first.failed
  have secondFailed := second.failed
  have lengths : (outcomes ++ rest).length - (turned + others) =
      outcomes.length - turned + (rest.length - others) := by
    rw [List.length_append]
    omega
  have errors : failures (outcomes ++ rest) - (turned + others) =
      failures outcomes - turned + (failures rest - others) := by
    omega
  refine ⟨by omega, ?_, ?_, ?_⟩
  · rw [second.invocations, first.invocations, lengths, UInt64.ofNat_add, UInt64.add_assoc]
  · rw [second.errors, first.errors, errors, UInt64.ofNat_add, UInt64.add_assoc]
  · rw [second.rowsWritten, first.rowsWritten, List.map_append, List.sum_append, UInt64.ofNat_add, UInt64.add_assoc]

end Counted

/-- A run of a sampler is counted once, whatever becomes of it. -/
theorem Sampler.sample_counted (sampler : Sampler) (backend : Backend σ) (request : SampleRequest)
    (circumstances : Circumstances) (state : σ) :
    Counted sampler.metrics 0 [(sampler.sample backend request circumstances state).1]
      (sampler.sample backend request circumstances state).2.1.metrics := by
  rw [sample_eq]
  dsimp only
  cases (backend.attempt (run sampler.config request circumstances) state).1 with
  | error error => exact ⟨Nat.zero_le _, rfl, rfl, rfl⟩
  | ok report => exact ⟨Nat.zero_le _, rfl, by simp [failures, SamplingMetrics.record, Except.toOption], rfl⟩

namespace Session

/-- How many of some requests never come to a run: all of them, if the settings are at fault. -/
def turnedAway (session : Session) (requests : List (SampleRequest × Circumstances)) : Nat :=
  match session.samplerConfig with
  | .ok _ => 0
  | .error _ => requests.length

theorem sample_counted (session : Session) (request : SampleRequest) (circumstances : Circumstances) :
    Counted session.metrics (session.turnedAway [(request, circumstances)])
      [(session.sample request circumstances).1] (session.sample request circumstances).2.metrics := by
  rcases session.sample_cases request circumstances with
    ⟨error, settings, same⟩ | ⟨config, outcome, counted, catalog, settings, ran, same⟩ <;>
    rw [turnedAway, settings, same]
  · exact ⟨Nat.le_refl 1, by simp, by simp [failures, Except.toOption], by simp [rowsOf, Except.toOption]⟩
  · have tallied := (Sampler.withMetrics config session.metrics).sample_counted Catalog.backend request circumstances
      session.catalog
    rw [ran] at tallied
    exact ⟨tallied.failed, tallied.invocations, tallied.errors, tallied.rowsWritten⟩

theorem turnedAway_nil (session : Session) : session.turnedAway [] = 0 := by
  unfold turnedAway
  split <;> rfl

/-- A sample changes no settings, so that its batch goes on under the same. -/
theorem turnedAway_cons (session : Session) (request : SampleRequest) (circumstances : Circumstances)
    (rest : List (SampleRequest × Circumstances)) :
    session.turnedAway ((request, circumstances) :: rest) =
      session.turnedAway [(request, circumstances)] + (session.sample request circumstances).2.turnedAway rest := by
  obtain ⟨assigned, config⟩ := session.sample_settings request circumstances
  have same : (session.sample request circumstances).2.samplerConfig = session.samplerConfig := by
    rw [samplerConfig, assigned, config]
    rfl
  unfold turnedAway
  rw [same]
  cases session.samplerConfig with
  | error error => exact Nat.add_comm _ _
  | ok config => rfl

theorem sampleBatch_counted (session : Session) (requests : List (SampleRequest × Circumstances)) :
    Counted session.metrics (session.turnedAway requests) (session.sampleBatch requests).1
      (session.sampleBatch requests).2.metrics := by
  induction requests generalizing session with
  | nil =>
    rw [turnedAway_nil]
    exact .none session.metrics
  | cons first rest ih =>
    rw [turnedAway_cons]
    exact (session.sample_counted first.1 first.2).append (ih _)

theorem length_sampleBatch (session : Session) (requests : List (SampleRequest × Circumstances)) :
    (session.sampleBatch requests).1.length = requests.length := by
  induction requests generalizing session with
  | nil => rfl
  | cons first rest ih => exact congrArg (· + 1) (ih _)

end Session

namespace SessionCall

theorem run_counted {call : SessionCall} (session : Session) (counting : call ≠ resetMetrics) :
    Counted session.metrics (session.turnedAway call.requests) (call.outcomes (call.run session).1)
      (call.run session).2.metrics := by
  have idle (after : Session) (same : after.metrics = session.metrics) :
      Counted session.metrics (session.turnedAway []) [] after.metrics := by
    rw [session.turnedAway_nil, same]
    exact .none session.metrics
  cases call with
  | createTable name contents =>
    rcases settle_createTable session name contents with same | ⟨relation, same⟩ <;> rw [run, same] <;>
      exact idle _ rfl
  | dropTable name =>
    rcases settle_dropTable session name with same | ⟨relation, -, same⟩ <;> rw [run, same] <;>
      exact idle _ rfl
  | change | setVariable | removeVariable | look => exact idle _ rfl
  | resetMetrics => exact absurd rfl counting
  | sample request circumstances => exact session.sample_counted request circumstances
  | sampleBatch requests => exact session.sampleBatch_counted requests

/-- How many of all requests never come to a run. -/
def turnedAway : List SessionCall → Session → Nat
  | [], _ => 0
  | call :: rest, session => session.turnedAway call.requests + turnedAway rest (call.run session).2

theorem runAll_counted {calls : List SessionCall} (session : Session) (counting : resetMetrics ∉ calls) :
    Counted session.metrics (turnedAway calls session) (runAll calls session).1 (runAll calls session).2.metrics := by
  induction calls generalizing session with
  | nil => exact .none session.metrics
  | cons call rest ih =>
    obtain ⟨first, others⟩ := List.ne_and_not_mem_of_not_mem_cons counting
    exact (call.run_counted session first.symm).append (ih _ others)

theorem length_outcomes (call : SessionCall) (session : Session) :
    (call.outcomes (call.run session).1).length = call.requests.length := by
  cases call with
  | sampleBatch requests => exact session.length_sampleBatch requests
  | sample | createTable | dropTable | change | setVariable | removeVariable | resetMetrics | look => rfl

theorem length_runAll (calls : List SessionCall) (session : Session) :
    (runAll calls session).1.length = (calls.flatMap requests).length := by
  induction calls generalizing session with
  | nil => rfl
  | cons call rest ih =>
    change (call.outcomes (call.run session).1 ++ (runAll rest (call.run session).2).1).length = _
    rw [List.length_append, call.length_outcomes, ih, List.flatMap_cons, List.length_append]

end SessionCall

/-- Whatever is called, short of a reset, every request has an outcome. The counters of the
session go on by the number of requests, the number of failures and the rows of the reports, except
that a request issued while the settings are at fault, which fails, is counted neither as an
invocation nor as an error. -/
theorem counters_of_calls (session : Session) {calls : List SessionCall} (counting : .resetMetrics ∉ calls) :
    let (outcomes, after) := SessionCall.runAll calls session
    let uncounted := SessionCall.turnedAway calls session
    outcomes.length = (calls.flatMap SessionCall.requests).length ∧ uncounted ≤ failures outcomes ∧
      after.metrics.invocations = session.metrics.invocations + UInt64.ofNat (outcomes.length - uncounted) ∧
      after.metrics.errors = session.metrics.errors + UInt64.ofNat (failures outcomes - uncounted) ∧
      after.metrics.rowsWritten = session.metrics.rowsWritten + UInt64.ofNat (outcomes.map rowsOf).sum := by
  obtain ⟨failed, invocations, errors, rowsWritten⟩ := SessionCall.runAll_counted session counting
  exact ⟨SessionCall.length_runAll calls session, failed, invocations, errors, rowsWritten⟩

namespace ThreeSales

/-- A blank prefix is set, and a sample is asked for. -/
def blankPrefix : List SessionCall :=
  [.setVariable "STRATA_STAGING_PREFIX" (.string ""), .sample (request false) circumstances]

theorem failure_uncounted : session.metrics = .start 1000 ∧ (blankPrefix.flatMap SessionCall.requests).length = 1 ∧
    ∃ after, SessionCall.runAll blankPrefix session =
        ([.error (.invalidArgument "staging_prefix must not be blank")], after) ∧
      after.metrics.invocations = 0 ∧ after.metrics.errors = 0 :=
  ⟨rfl, rfl, _, rfl, rfl, rfl⟩

/-- Under a prefix that is not blank the same request comes to a run. -/
theorem counted_after_failure : ∃ outcomes after,
    SessionCall.runAll (blankPrefix ++ [.setVariable "STRATA_STAGING_PREFIX" (.string "tmp"),
      .sample (request false) circumstances]) session = (outcomes, after) ∧
    outcomes.length = 2 ∧ after.metrics.invocations = 1 := by
  have counting : SessionCall.resetMetrics ∉ blankPrefix ++ [.setVariable "STRATA_STAGING_PREFIX" (.string "tmp"),
      .sample (request false) circumstances] := by
    simp [blankPrefix]
  obtain ⟨answered, -, invocations, -⟩ := counters_of_calls session counting
  exact ⟨_, _, rfl, answered, invocations⟩

end ThreeSales

end StratifiedSampling
