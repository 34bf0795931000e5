import StratifiedSampling.Proofs.Runs

/-! The parts of one run of the sampler: looks while a plan is made, then the plan's work
in a staging area, then the drops that close the area. The drops come after the outcome
is settled. -/

namespace StratifiedSampling

variable {σ : Type}

theorem SampleRequest.validate_peeks (request : SampleRequest) : Peeks request.validate.run := by
  unfold validate
  refine .bind (.settled _) fun output => .bind (.settled _) fun source => .check fun _ => ?_
  refine .bind (.call trivial) fun taken => .check fun _ => .bind (.call trivial) fun present => .check fun _ => ?_
  refine .bind (.call trivial) fun empty => .check fun _ => .bind (.settled _) fun _ => ?_
  exact .bind (.call trivial) fun columns => .settled _

namespace Staged

/-- Every call of a staged program is of some kind, whatever the area. -/
def Uses (allowed : Call → Prop) (program : Staged α) : Prop :=
  ∀ area, (program.run.run area).Uses allowed

variable {allowed : Call → Prop}

theorem Uses.pure (value : α) : Uses allowed (pure value) := fun _ => .done

theorem Uses.throw (error : Error) : Uses allowed (throw error : Staged α) := fun _ => .done

theorem Uses.bind {program : Staged α} {next : α → Staged β} (first : Uses allowed program)
    (rest : ∀ value, Uses allowed (next value)) : Uses allowed (program >>= next) := by
  intro area
  refine Program.Uses.bind (first area) fun ⟨outcome, after⟩ => ?_
  cases outcome with
  | error error => exact .done
  | ok value => exact rest value after

theorem Uses.stage {suffix : String} {spec : RelationSpec} (creates : ∀ name, allowed (.create name spec)) :
    Uses allowed (Staging.stage suffix spec) := by
  intro area
  simp only [Staging.stage, ExceptT.run_mk, StateT.run]
  split
  · exact .done
  · exact .request (creates _) fun _ => .done

theorem Uses.createOutput {output : RelationName} {spec : RelationSpec} (creates : allowed (.create output spec)) :
    Uses allowed (Staging.createOutput output spec) :=
  fun _ => .request creates fun _ => .done

theorem Uses.groupCounts {name : RelationName} {groupBy : List String}
    (counts : allowed (.groupCounts name groupBy)) : Uses allowed (Staging.groupCounts name groupBy) :=
  fun _ => .request counts fun _ => .done

end Staged

theorem SamplePlan.execute_uses (plan : SamplePlan) (strategy : SamplingStrategy) :
    Staged.Uses (fun call => ¬call.Drops) (plan.execute strategy) := by
  have creates : ∀ name spec, ¬(Call.create name spec).Drops := fun _ _ => id
  cases strategy with
  | withoutReplacement =>
    simp only [execute, withoutReplacement, takeSmallest, takeUpToThreshold]
    refine .bind (.stage (creates · _)) fun (labeled, _) => ?_
    dsimp only
    split
    · exact .createOutput (creates _ _)
    · exact .bind (.stage (creates · _)) fun _ => .createOutput (creates _ _)
  | withReplacement =>
    simp only [execute, withReplacement]
    refine .bind (.stage (creates · _)) fun _ => .bind (.stage (creates · _)) fun _ => ?_
    refine .bind (.createOutput (creates _ _)) fun written => ?_
    split
    · exact .bind (.groupCounts id) fun _ => .bind (.throw _) fun _ => .pure _
    · exact .pure _

namespace Sampler

theorem prepare_peeks (config : SamplerConfig) (request : SampleRequest) (freshSeed : UInt64) :
    Peeks (prepare config request freshSeed).run :=
  .bind (.settled _) fun _ => .bind request.validate_peeks fun _ => .bind (.call trivial) fun _ => .done

/-- A plan is made only if the settings and the request are valid and the strata are counted. -/
theorem prepare_eq_ok {backend : Backend σ} {config : SamplerConfig} {request : SampleRequest} {freshSeed : UInt64}
    {plan : SamplePlan} {state prepared : σ}
    (made : backend.attempt (prepare config request freshSeed) state = (.ok plan, prepared)) :
    config.validate = .ok () ∧ plan.seed = config.seed.getD freshSeed ∧
      ∃ validated, backend.attempt request.validate state = (.ok plan.request, validated) ∧
        backend.answer (.groupCounts plan.request.source plan.request.strata.columns) validated =
          (.ok plan.strataSizes, prepared) := by
  obtain ⟨checked, after, settings, made⟩ := Backend.attempt_bind_eq_ok made
  rw [Backend.attempt_settled, Prod.mk.injEq] at settings
  obtain ⟨settings, rfl⟩ := settings
  obtain ⟨valid, validated, accepted, made⟩ := Backend.attempt_bind_eq_ok made
  obtain ⟨sizes, counted, answered, made⟩ := Backend.attempt_bind_eq_ok made
  cases made
  exact ⟨settings, rfl, validated, accepted, answered⟩

/-- The area at the end of a plan's work, committed if the work succeeded. -/
def settledArea (outcome : Except Error α) (area : Staging) : Staging :=
  if outcome.toOption.isSome then area.commit else area

def work (backend : Backend σ) (config : SamplerConfig) (plan : SamplePlan) (token : Token) (state : σ) :
    (Except Error Nat × Staging) × σ :=
  Staged.play backend (plan.execute (.ofRequest plan.request.withReplacement))
    (.start config.stagingPrefix token) state

/-- Closing the area changes the state of the backend and nothing else. -/
theorem attempt_carryOut (backend : Backend σ) (config : SamplerConfig) (plan : SamplePlan) (token : Token)
    (state : σ) :
    backend.attempt (carryOut config plan token) state =
      let ((outcome, area), worked) := work backend config plan token state
      (outcome, (backend.run (settledArea outcome area).close worked).2) := by
  unfold Backend.attempt carryOut
  simp only [ExceptT.run_mk, Backend.run_bind]
  rfl

theorem attempt_run (backend : Backend σ) (config : SamplerConfig) (request : SampleRequest)
    (circumstances : Circumstances) (state : σ) :
    backend.attempt (run config request circumstances) state =
      match backend.attempt (prepare config request circumstances.freshSeed) state with
      | (.error error, prepared) => (.error error, prepared)
      | (.ok plan, prepared) =>
        let (outcome, final) := backend.attempt (carryOut config plan circumstances.token) prepared
        (outcome.map fun rows => report plan rows circumstances.elapsed, final) := by
  unfold run
  rw [Backend.attempt_bind]
  rcases backend.attempt (prepare config request circumstances.freshSeed) state with ⟨outcome, prepared⟩
  cases outcome with
  | error error => rfl
  | ok plan =>
    dsimp only
    rw [Backend.attempt_bind]
    rcases backend.attempt (carryOut config plan circumstances.token) prepared with ⟨outcome, final⟩
    cases outcome <;> rfl

theorem sample_eq (sampler : Sampler) (backend : Backend σ) (request : SampleRequest) (circumstances : Circumstances)
    (state : σ) :
    sampler.sample backend request circumstances state =
      let final := backend.attempt (run sampler.config request circumstances) state
      let rows := final.1.toOption.map SampleReport.rowsWritten
      (final.1, { sampler with metrics := sampler.metrics.record circumstances.elapsed rows }, final.2) := by
  unfold sample Backend.attempt
  rcases backend.run (run sampler.config request circumstances).run state with ⟨outcome, final⟩
  rfl

end Sampler

end StratifiedSampling
