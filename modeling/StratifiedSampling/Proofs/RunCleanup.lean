import StratifiedSampling.Proofs.BackendCalls

/-! What a run leaves to be cleaned up, and that it cleans up. Nothing is created before
every check has passed; whatever was tried after that is dropped at the end, last first,
and no failure to drop is ever seen in the outcome. -/

namespace StratifiedSampling

variable {σ : Type}

/-- What is dropped besides the staged relations: the output of a run that failed, unless
its name turned out to be taken. -/
def rollback (output : RelationName) (outcome : Except Error α) (attempted : Option Creation) : List RelationName :=
  match outcome with
  | .ok _ => []
  | .error _ =>
    match attempted with
    | none => []
    | some ⟨_, _, .ok _⟩ => [output]
    | some ⟨_, _, .error refused⟩ => if refused.kind = .alreadyExists then [] else [output]

/-- The checks that come before any change all succeeded. -/
structure Ready (backend : Backend σ) (config : SamplerConfig) (request : SampleRequest) (state : σ)
    (valid : ValidRequest) : Prop where
  settings : config.validate = .ok ()
  accepted : (backend.attempt request.validate state).1 = .ok valid
  counted : ∃ sizes, (backend.answer (.groupCounts valid.source valid.strata.columns)
    (backend.attempt request.validate state).2).1 = .ok sizes

/-- How the calls of a run with a valid request are ordered, and what they are about. -/
structure Orderly (valid : ValidRequest) (staging : List RelationName) (log : List Exchange)
    (outcome : Except Error α) : Prop where
  distinct : staging.Nodup
  created : (creations log).map Creation.name <+: staging ++ [valid.output]
  reads : Reads valid.source (creations log)
  dropped : drops log = ((creations log).take staging.length).reverse.map Creation.name ++
    rollback valid.output outcome (creations log)[staging.length]?
  dropsLast : ∃ working closing, log = working ++ closing ∧
    (∀ exchange ∈ working, ¬exchange.call.Drops) ∧ (∀ exchange ∈ closing, exchange.call.Drops) ∧
    Answered working outcome ∧
    ((∀ exchange ∈ working, ∃ value, exchange.reply = .ok value) →
      ∀ error, outcome = .error error → error.kind = .consistency)

theorem ValidRequest.stages_distinct (valid : ValidRequest) (stagingPrefix : String) (token : Token) :
    (valid.stages.map (Staging.nameOf stagingPrefix token)).Nodup := by
  unfold stages
  split
  · simp [Staging.ranked_ne_draws]
  · split <;> simp [Staging.labeled_ne_thresholds]

theorem creations_append (first second : List Exchange) :
    creations (first ++ second) = creations first ++ creations second :=
  List.filterMap_append

theorem drops_append (first second : List Exchange) : drops (first ++ second) = drops first ++ drops second :=
  List.filterMap_append

theorem creations_exchanges (made : List Creation) : creations (made.map Creation.exchange) = made := by
  induction made with
  | nil => rfl
  | cons first rest ih => simpa [creations] using ih

theorem creations_of_looks {log : List Exchange} (looks : ∀ exchange ∈ log, exchange.call.Looks) :
    creations log = [] :=
  List.filterMap_eq_nil_iff.mpr fun exchange member => Exchange.creation?_of_looks (looks exchange member)

theorem creations_of_drops {log : List Exchange} (dropping : ∀ exchange ∈ log, exchange.call.Drops) :
    creations log = [] :=
  List.filterMap_eq_nil_iff.mpr fun exchange member => Exchange.creation?_of_drops (dropping exchange member)

theorem drops_of_not_drops {log : List Exchange} (keeping : ∀ exchange ∈ log, ¬exchange.call.Drops) :
    drops log = [] :=
  List.filterMap_eq_nil_iff.mpr fun exchange member => Exchange.dropped?_of_not_drops (keeping exchange member)

theorem recorded_dropAll (backend : Backend σ) (names : List RelationName) (log : List Exchange) (state : σ) :
    ∃ closing, (backend.recorded.run (Staging.dropAll names) (log, state)).2.1 = log ++ closing ∧
      drops closing = names ∧ ∀ exchange ∈ closing, exchange.call.Drops := by
  induction names generalizing log state with
  | nil => exact ⟨[], by simp [Staging.dropAll, Backend.run], rfl, by simp⟩
  | cons name rest ih =>
    obtain ⟨closing, grown, dropped, kinds⟩ := ih (log ++ [⟨.drop name, (backend.answer (.drop name) state).1⟩])
      (backend.answer (.drop name) state).2
    refine ⟨⟨.drop name, (backend.answer (.drop name) state).1⟩ :: closing, ?_, ?_, ?_⟩
    · simpa [Staging.dropAll, Backend.run, Backend.recorded] using grown
    · simpa [drops, Exchange.dropped?] using dropped
    · simpa [Call.Drops] using kinds

/-- The leftovers of an area at the end of the work are what was staged and what is rolled back. -/
theorem leftovers_settledArea {output : RelationName} {staging : List RelationName} {made : List Creation}
    {start : Staging} (uncommitted : start.committed = false) (outcome : Except Error Nat) :
    (Sampler.settledArea outcome { start with
      staged := (made.take staging.length).map Creation.name
      output := made[staging.length]?.bind fun creation => Staged.owned output creation.reply }).leftovers =
    (made.take staging.length).reverse.map Creation.name ++ rollback output outcome made[staging.length]? := by
  unfold Sampler.settledArea Staging.leftovers Staging.commit
  cases outcome with
  | ok rows => simp [Except.toOption, rollback]
  | error error =>
    rcases made[staging.length]? with _ | ⟨name, spec, reply⟩
    · simp [Except.toOption, rollback, uncommitted]
    · cases reply with
      | ok rows => simp [Except.toOption, rollback, uncommitted, Staged.owned]
      | error refused =>
        by_cases taken : refused.kind = .alreadyExists <;>
          simp [Except.toOption, rollback, uncommitted, Staged.owned, taken]

theorem rollback_map (output : RelationName) (outcome : Except Error α) (attempted : Option Creation) (f : α → β) :
    rollback output (outcome.map f) attempted = rollback output outcome attempted := by
  cases outcome <;> rfl

theorem Answered.map {log : List Exchange} {outcome : Except Error α} (answered : Answered log outcome) (f : α → β) :
    Answered log (outcome.map f) := by
  intro before exchange after error split failed
  obtain ⟨last, same⟩ := answered before exchange after error split failed
  exact ⟨last, by rw [same]; rfl⟩

theorem Answered.after {first second : List Exchange} {outcome : Except Error α} (answered : Answered second outcome)
    (succeeded : ∀ exchange ∈ first, ∃ value, exchange.reply = .ok value) : Answered (first ++ second) outcome := by
  intro before exchange after error split failed
  rcases List.append_eq_append_iff.mp split with ⟨start, rfl, same⟩ | ⟨rest, rfl, same⟩
  · exact answered start exchange after error same failed
  · cases rest with
    | nil => exact answered [] exchange after error same.symm failed
    | cons head rest =>
      obtain ⟨rfl, -⟩ := List.cons.inj same
      obtain ⟨value, replied⟩ := succeeded exchange (by simp)
      cases failed.symm.trans replied

theorem Finished.orderly {valid : ValidRequest} {staging : List RelationName} {start : Staging}
    {seen looks closing : List Exchange} {outcome : Except Error Nat} {area : Staging}
    {state : List Exchange × σ} {made : List Creation} (f : Nat → α)
    (finished : Finished valid.source valid.output staging start seen outcome area state made looks)
    (distinct : staging.Nodup) (uncommitted : start.committed = false)
    (seenLooks : ∀ exchange ∈ seen, exchange.call.Looks)
    (seenSucceeded : ∀ exchange ∈ seen, ∃ value, exchange.reply = .ok value)
    (closed : drops closing = (Sampler.settledArea outcome area).leftovers)
    (closingDrops : ∀ exchange ∈ closing, exchange.call.Drops) :
    Orderly valid staging (state.1 ++ closing) (outcome.map f) := by
  have keeping : ∀ exchange ∈ state.1, ¬exchange.call.Drops := by
    rw [finished.log]
    intro exchange member
    rcases List.mem_append.mp member with member | member
    · exact (seenLooks exchange member).not_drops
    rcases List.mem_append.mp member with member | member
    · obtain ⟨creation, -, rfl⟩ := List.mem_map.mp member
      exact id
    · exact (finished.looked exchange member).not_drops
  have all : creations (state.1 ++ closing) = made := by
    rw [finished.log]
    simp only [creations_append, creations_of_looks seenLooks, creations_exchanges,
      creations_of_looks finished.looked, creations_of_drops closingDrops, List.nil_append, List.append_nil]
  refine ⟨distinct, all ▸ finished.created, all ▸ finished.reads, ?_, state.1, closing, rfl, keeping, closingDrops,
    ?_, ?_⟩
  · rw [drops_append, drops_of_not_drops keeping, List.nil_append, closed, finished.area, all, rollback_map]
    exact leftovers_settledArea uncommitted outcome
  · rw [finished.log]
    exact (finished.answered.after seenSucceeded).map f
  · rw [finished.log]
    intro succeeded error failed
    refine finished.consistent ?_ ?_ error ?_
    · intro creation member
      exact succeeded creation.exchange (by simpa using .inr (.inl ⟨creation, member, rfl⟩))
    · intro exchange member
      exact succeeded exchange (by simp [member])
    · cases outcome with
      | ok rows => cases failed
      | error other => cases failed; rfl

theorem SamplePlan.work_ends (backend : Backend σ) (config : SamplerConfig) (plan : SamplePlan) (token : Token)
    (seen : List Exchange) (inner : σ) :
    let start := Staging.start config.stagingPrefix token
    let worked := Sampler.work backend.recorded config plan token (seen, inner)
    Ended plan.request.source plan.request.output (plan.staging start) start seen worked.1.1 worked.1.2 worked.2 := by
  have fresh : Underway plan.request.source (Staging.start config.stagingPrefix token) [] seen
      (.start config.stagingPrefix token) (seen, inner) :=
    ⟨rfl, [], rfl, by simp, by simp [Reads], by simp⟩
  cases mode : plan.request.withReplacement with
  | false =>
    have strategy : plan.execute (.ofRequest plan.request.withReplacement) = plan.withoutReplacement := by
      rw [mode]; rfl
    simp only [Sampler.work, strategy]
    exact (withoutReplacement_ends backend plan rfl mode).ends _ _ fresh
  | true =>
    have strategy : plan.execute (.ofRequest plan.request.withReplacement) = plan.withReplacement := by
      rw [mode]; rfl
    simp only [Sampler.work, strategy]
    exact (withReplacement_ends backend plan rfl mode).ends _ _ fresh

namespace Sampler

theorem carryOut_orderly (backend : Backend σ) (config : SamplerConfig) (plan : SamplePlan) (token : Token)
    (seen : List Exchange) (inner : σ) (f : Nat → α) (seenLooks : ∀ exchange ∈ seen, exchange.call.Looks)
    (seenSucceeded : ∀ exchange ∈ seen, ∃ value, exchange.reply = .ok value) :
    let final := backend.recorded.attempt (carryOut config plan token) (seen, inner)
    Orderly plan.request (plan.staging (.start config.stagingPrefix token)) final.2.1 (final.1.map f) := by
  obtain ⟨made, looks, finished⟩ := plan.work_ends backend config token seen inner
  simp only [attempt_carryOut]
  generalize work backend.recorded config plan token (seen, inner) = worked at finished ⊢
  obtain ⟨⟨outcome, area⟩, log, state⟩ := worked
  obtain ⟨closing, grown, dropped, dropping⟩ :=
    recorded_dropAll backend (settledArea outcome area).leftovers log state
  simp only [Staging.close, grown]
  exact finished.orderly f (plan.request.stages_distinct _ _) rfl seenLooks seenSucceeded dropped dropping

/-- A run looks first. Either that is all it does, and it fails, or the request was valid. -/
theorem run_orderly (backend : Backend σ) (config : SamplerConfig) (request : SampleRequest)
    (circumstances : Circumstances) (state : σ) :
    let final := backend.recorded.attempt (run config request circumstances) ([], state)
    ((∀ exchange ∈ final.2.1, exchange.call.Looks) ∧ Answered final.2.1 final.1 ∧ ∃ error, final.1 = .error error) ∨
    ∃ valid, Ready backend config request state valid ∧
      Orderly valid (valid.stages.map (Staging.nameOf (Text.trim config.stagingPrefix) circumstances.token))
        final.2.1 final.1 := by
  obtain ⟨seen, grown, looked, answered⟩ :=
    (prepare_peeks config request circumstances.freshSeed).answered backend [] state
  obtain ⟨sameOutcome, sameState⟩ :=
    backend.run_recorded (prepare config request circumstances.freshSeed).run [] state
  simp only [attempt_run]
  rcases ran : backend.recorded.attempt (prepare config request circumstances.freshSeed) ([], state) with
    ⟨outcome, log, inner⟩
  unfold Backend.attempt at ran
  rw [ran] at grown sameOutcome sameState
  obtain rfl : log = seen := by simpa using grown
  rw [← sameOutcome] at answered
  cases outcome with
  | error error =>
    refine .inl ⟨looked, ?_, error, rfl⟩
    intro before exchange after failure split failed
    obtain ⟨last, same⟩ := answered before exchange after failure split failed
    cases same
    exact ⟨last, rfl⟩
  | ok plan =>
    have prepared : backend.attempt (prepare config request circumstances.freshSeed) state = (.ok plan, inner) :=
      Prod.ext sameOutcome.symm sameState.symm
    obtain ⟨settings, -, validated, accepted, counted⟩ := prepare_eq_ok prepared
    refine .inr ⟨plan.request, ⟨settings, by rw [accepted], plan.strataSizes, by rw [accepted, counted]⟩, ?_⟩
    refine carryOut_orderly backend config plan circumstances.token log inner _ looked ?_
    intro exchange member
    cases replied : exchange.reply with
    | ok value => exact ⟨value, rfl⟩
    | error error =>
      obtain ⟨before, after, split⟩ := List.append_of_mem member
      exact nomatch (answered before exchange after error split replied).2

/-- What a run ends with depends on the backend's replies to looks and creations alone. -/
theorem attempt_run_of_agree {backend other : Backend σ}
    (agree : ∀ call state, ¬call.Drops → other.answer call state = backend.answer call state)
    (config : SamplerConfig) (request : SampleRequest) (circumstances : Circumstances) (state : σ) :
    (other.attempt (run config request circumstances) state).1 =
      (backend.attempt (run config request circumstances) state).1 := by
  have prepared : other.attempt (prepare config request circumstances.freshSeed) state =
      backend.attempt (prepare config request circumstances.freshSeed) state :=
    Backend.run_eq_of_uses (fun call state looks => agree call state (Call.Looks.not_drops looks))
      (prepare_peeks config request circumstances.freshSeed).uses state
  have worked : ∀ plan inner, work other config plan circumstances.token inner =
      work backend config plan circumstances.token inner := fun plan inner =>
    Backend.run_eq_of_uses agree (plan.execute_uses _ _) inner
  simp only [attempt_run, prepared, attempt_carryOut, worked]
  rcases backend.attempt (prepare config request circumstances.freshSeed) state with ⟨outcome, inner⟩
  cases outcome <;> rfl

end Sampler

/-- One call of the sampler, on any backend and whatever it replies. Failures to drop do not
show in the outcome; nothing is created or dropped before the settings, the request and the
count of the strata are all in order; and then the calls are orderly. -/
theorem sample_cleans_up (backend : Backend σ) (sampler : Sampler) (request : SampleRequest)
    (circumstances : Circumstances) (state : σ) :
    let final := sampler.sample backend.recorded request circumstances ([], state)
    let outcome := (sampler.sample backend request circumstances state).1
    let log := final.2.2.1
    let staging := fun valid : ValidRequest =>
      valid.stages.map (Staging.nameOf (Text.trim sampler.config.stagingPrefix) circumstances.token)
    final.1 = outcome ∧
    (∀ other : Backend σ, (∀ call state, ¬call.Drops → other.answer call state = backend.answer call state) →
      (sampler.sample other request circumstances state).1 = outcome) ∧
    (((∀ exchange ∈ log, exchange.call.Looks) ∧ Answered log outcome ∧ ∃ error, outcome = .error error) ∨
      ∃ valid, Ready backend sampler.config request state valid ∧ Orderly valid (staging valid) log outcome) := by
  have same : (backend.recorded.attempt (Sampler.run sampler.config request circumstances) ([], state)).1 =
      (backend.attempt (Sampler.run sampler.config request circumstances) state).1 :=
    (backend.run_recorded (Sampler.run sampler.config request circumstances).run [] state).1
  have orderly := Sampler.run_orderly backend sampler.config request circumstances state
  simp only [same] at orderly
  simp only [Sampler.sample_eq]
  exact ⟨same, fun other agree => Sampler.attempt_run_of_agree agree sampler.config request circumstances state, orderly⟩

end StratifiedSampling
