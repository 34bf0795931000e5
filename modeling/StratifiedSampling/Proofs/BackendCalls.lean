import StratifiedSampling.Proofs.SamplerRuns
import StratifiedSampling.Proofs.StagingNames

/-! The calls that a run makes, on any backend. What the backend replies is arbitrary, so
the laws speak of the calls together with their replies. -/

namespace StratifiedSampling

variable {σ : Type}

structure Exchange where
  call : Call
  reply : Except Error call.Reply

/-- A request for a new relation, with the number of its rows if it was made. -/
structure Creation where
  name : RelationName
  spec : RelationSpec
  reply : Except Error Nat

namespace Creation

def exchange (creation : Creation) : Exchange :=
  ⟨.create creation.name creation.spec, creation.reply⟩

def Succeeded (creation : Creation) : Prop :=
  ∃ rows, creation.reply = .ok rows

end Creation

namespace Exchange

def creation? : Exchange → Option Creation
  | ⟨.create name spec, reply⟩ => some ⟨name, spec, reply⟩
  | _ => none

def dropped? : Exchange → Option RelationName
  | ⟨.drop name, _⟩ => some name
  | _ => none

@[simp] theorem creation?_exchange (creation : Creation) : creation.exchange.creation? = some creation := rfl

theorem creation?_of_looks {exchange : Exchange} (looks : exchange.call.Looks) : exchange.creation? = none := by
  obtain ⟨call, reply⟩ := exchange
  cases call <;> first | rfl | exact looks.elim

theorem creation?_of_drops {exchange : Exchange} (drops : exchange.call.Drops) : exchange.creation? = none := by
  obtain ⟨call, reply⟩ := exchange
  cases call <;> first | rfl | exact drops.elim

theorem dropped?_of_not_drops {exchange : Exchange} (keeps : ¬exchange.call.Drops) : exchange.dropped? = none := by
  obtain ⟨call, reply⟩ := exchange
  cases call <;> first | rfl | exact (keeps trivial).elim

end Exchange

def creations (log : List Exchange) : List Creation :=
  log.filterMap Exchange.creation?

def drops (log : List Exchange) : List RelationName :=
  log.filterMap Exchange.dropped?

/-- A call that fails is the last one, and its error is the outcome. -/
def Answered (log : List Exchange) (outcome : Except Error α) : Prop :=
  ∀ before exchange after error, log = before ++ exchange :: after → exchange.reply = .error error →
    after = [] ∧ outcome = .error error

/-- Every relation that is read is the source, or was created before without an error. -/
def Reads (source : RelationName) (made : List Creation) : Prop :=
  ∀ before creation after, made = before ++ creation :: after → ∀ input ∈ creation.spec.inputs,
    input = source ∨ ∃ earlier ∈ before, earlier.name = input ∧ earlier.Succeeded

namespace Backend

/-- The same backend, which also keeps every call with its reply. -/
def recorded (backend : Backend σ) : Backend (List Exchange × σ) where
  answer call state :=
    ((backend.answer call state.2).1,
      (state.1 ++ [⟨call, (backend.answer call state.2).1⟩], (backend.answer call state.2).2))

theorem run_recorded (backend : Backend σ) (program : Program α) (log : List Exchange) (state : σ) :
    (backend.recorded.run program (log, state)).1 = (backend.run program state).1 ∧
      (backend.recorded.run program (log, state)).2.2 = (backend.run program state).2 := by
  induction program generalizing log state with
  | done => exact ⟨rfl, rfl⟩
  | request call next ih => exact ih _ _ _

end Backend

theorem Answered.of_succeeded {log : List Exchange} {outcome : Except Error α}
    (succeeded : ∀ exchange ∈ log, ∃ value, exchange.reply = .ok value) : Answered log outcome := by
  intro before exchange after error split failed
  obtain ⟨value, replied⟩ := succeeded exchange (by simp [split])
  rw [failed] at replied
  cases replied

/-- After calls that succeeded, one more may fail if its error is the outcome. -/
theorem Answered.append {log : List Exchange} {outcome : Except Error α} {last : Exchange}
    (succeeded : ∀ exchange ∈ log, ∃ value, exchange.reply = .ok value)
    (ends : ∀ error, last.reply = .error error → outcome = .error error) : Answered (log ++ [last]) outcome := by
  intro before exchange after error split failed
  rcases List.eq_nil_or_concat after with rfl | ⟨start, final, rfl⟩
  · obtain ⟨-, same⟩ := List.append_inj' split rfl
    cases same
    exact ⟨rfl, ends error failed⟩
  · have inner : log = before ++ exchange :: start := by
      have whole : log ++ [last] = (before ++ exchange :: start) ++ [final] := by simpa using split
      exact (List.append_inj' whole rfl).1
    obtain ⟨value, replied⟩ := succeeded exchange (by simp [inner])
    rw [failed] at replied
    cases replied

theorem Peeks.answered {program : Program (Except Error α)} (peeks : Peeks program) (backend : Backend σ)
    (log : List Exchange) (state : σ) :
    ∃ seen, (backend.recorded.run program (log, state)).2.1 = log ++ seen ∧
      (∀ exchange ∈ seen, exchange.call.Looks) ∧ Answered seen (backend.run program state).1 := by
  induction peeks generalizing log state with
  | done => exact ⟨[], by simp [Backend.run], by simp, .of_succeeded (by simp)⟩
  | @request call next looks ends _ ih =>
    cases replied : (backend.answer call state).1 with
    | error error =>
      refine ⟨[⟨call, .error error⟩], ?_, by simpa using looks, ?_⟩
      · simp [Backend.run, Backend.recorded, replied, ends]
      · have before : ∀ exchange ∈ ([] : List Exchange), ∃ value, exchange.reply = .ok value := by simp
        refine Answered.append before fun other failed => ?_
        cases failed
        simp [Backend.run, replied, ends]
    | ok value =>
      obtain ⟨seen, grown, kinds, answered⟩ := ih value (log ++ [⟨call, .ok value⟩]) (backend.answer call state).2
      refine ⟨⟨call, .ok value⟩ :: seen, ?_, ?_, ?_⟩
      · simpa [Backend.run, Backend.recorded, replied] using grown
      · simpa using ⟨looks, kinds⟩
      · intro before exchange after error split failed
        simp only [Backend.run, replied]
        cases before with
        | nil =>
          cases split
          cases failed
        | cons first before =>
          obtain ⟨-, rest⟩ := List.cons.inj split
          exact answered before exchange after error rest failed

/-- A run in the middle of its work: some relations are staged, all without an error. -/
def Underway (source : RelationName) (start : Staging) (names : List RelationName) (seen : List Exchange)
    (area : Staging) (state : List Exchange × σ) : Prop :=
  area = { start with staged := names } ∧
    ∃ made : List Creation, made.map Creation.name = names ∧ state.1 = seen ++ made.map Creation.exchange ∧
      Reads source made ∧ ∀ creation ∈ made, creation.Succeeded

structure Finished (source output : RelationName) (staging : List RelationName) (start : Staging)
    (seen : List Exchange) (outcome : Except Error Nat) (area : Staging) (state : List Exchange × σ)
    (made : List Creation) (looks : List Exchange) : Prop where
  log : state.1 = seen ++ (made.map Creation.exchange ++ looks)
  looked : ∀ exchange ∈ looks, exchange.call.Looks
  created : made.map Creation.name <+: staging ++ [output]
  reads : Reads source made
  answered : Answered (made.map Creation.exchange ++ looks) outcome
  consistent : (∀ creation ∈ made, creation.Succeeded) → (∀ exchange ∈ looks, ∃ value, exchange.reply = .ok value) →
    ∀ error, outcome = .error error → error.kind = .consistency
  area : area = { start with
    staged := (made.take staging.length).map Creation.name
    output := made[staging.length]?.bind fun creation => Staged.owned output creation.reply }

theorem Reads.append {source : RelationName} {made : List Creation} (reads : Reads source made) (last : Creation)
    (known : ∀ input ∈ last.spec.inputs, input = source ∨ ∃ earlier ∈ made, earlier.name = input ∧ earlier.Succeeded) :
    Reads source (made ++ [last]) := by
  intro before creation after split
  rcases List.eq_nil_or_concat after with rfl | ⟨start, final, rfl⟩
  · obtain ⟨rfl, same⟩ := List.append_inj' split rfl
    cases same
    exact known
  · have whole : made ++ [last] = (before ++ creation :: start) ++ [final] := by simpa using split
    exact reads before creation start (List.append_inj' whole rfl).1

theorem succeeded_exchanges {made : List Creation} (succeeded : ∀ creation ∈ made, creation.Succeeded) :
    ∀ exchange ∈ made.map Creation.exchange, ∃ value, exchange.reply = .ok value := by
  intro exchange member
  obtain ⟨creation, present, rfl⟩ := List.mem_map.mp member
  exact succeeded creation present

def Ended (source output : RelationName) (staging : List RelationName) (start : Staging) (seen : List Exchange)
    (outcome : Except Error Nat) (area : Staging) (state : List Exchange × σ) : Prop :=
  ∃ made looks, Finished source output staging start seen outcome area state made looks

section Work
variable (backend : Backend σ) {source output : RelationName} {staging names : List RelationName} {start : Staging}
  {seen : List Exchange}

theorem known_inputs {made : List Creation} (succeeded : ∀ creation ∈ made, creation.Succeeded)
    {inputs : List RelationName} (staged : ∀ input ∈ inputs, input = source ∨ input ∈ made.map Creation.name) :
    ∀ input ∈ inputs, input = source ∨ ∃ earlier ∈ made, earlier.name = input ∧ earlier.Succeeded := by
  intro input member
  refine (staged input member).imp_right fun present => ?_
  obtain ⟨earlier, member, same⟩ := List.mem_map.mp present
  exact ⟨earlier, member, same, succeeded earlier member⟩

theorem stage_underway (suffix : String) {spec : RelationSpec} {name : RelationName}
    (named : Staging.nameOf start.stagingPrefix start.token suffix = name) (unwritten : start.output = none)
    (planned : names ++ [name] <+: staging) (inputs : ∀ input ∈ spec.inputs, input = source ∨ input ∈ names) :
    Staged.Triple backend.recorded (Underway source start names seen) (Staging.stage suffix spec)
      fun outcome area state =>
        match outcome with
        | .ok (staged, _) => staged = name ∧ Underway source start (names ++ [name]) seen area state
        | .error error => Ended source output staging start seen (.error error) area state := by
  subst named
  apply Staged.Triple.stage
  rintro area ⟨log, inner⟩ ⟨rfl, made, rfl, rfl, reads, succeeded⟩
  have known := known_inputs succeeded inputs
  have lengths : made.length + 1 ≤ staging.length := by simpa using planned.length_le
  generalize Staging.nameOf start.stagingPrefix start.token suffix = name at planned ⊢
  simp only [Backend.recorded]
  rcases backend.answer (.create name spec) inner with ⟨reply, after⟩
  let last : Creation := ⟨name, spec, reply⟩
  cases reply with
  | ok rows =>
    refine ⟨rfl, rfl, made ++ [last], by simp [last], by simp [last, Creation.exchange], reads.append last known, ?_⟩
    intro creation member
    rcases List.mem_append.mp member with member | member
    · exact succeeded creation member
    · exact List.mem_singleton.mp member ▸ ⟨rows, rfl⟩
  | error error =>
    refine ⟨made ++ [last], [], ?_, by simp, ?_, reads.append last known, ?_, ?_, ?_⟩
    · simp [last, Creation.exchange]
    · simpa [last] using planned.trans (List.prefix_append staging [output])
    · simp only [List.map_append, List.map_cons, List.map_nil, List.append_nil]
      exact Answered.append (succeeded_exchanges succeeded) fun other failed => by cases failed; rfl
    · intro all
      obtain ⟨rows, claimed⟩ := all last (by simp)
      cases claimed
    · have beyond : (made ++ [last])[staging.length]? = none := List.getElem?_eq_none (by simpa using lengths)
      have whole : (made ++ [last]).take staging.length = made ++ [last] :=
        List.take_of_length_le (by simpa using lengths)
      simp [whole, beyond, last, unwritten]

theorem stage_then (suffix : String) {spec : RelationSpec} {name : RelationName}
    {next : RelationName × Nat → Staged Nat}
    (named : Staging.nameOf start.stagingPrefix start.token suffix = name) (unwritten : start.output = none)
    (planned : names ++ [name] <+: staging) (inputs : ∀ input ∈ spec.inputs, input = source ∨ input ∈ names)
    (rest : ∀ rows, Staged.Triple backend.recorded (Underway source start (names ++ [name]) seen) (next (name, rows))
      (Ended source output staging start seen)) :
    Staged.Triple backend.recorded (Underway source start names seen) (Staging.stage suffix spec >>= next)
      (Ended source output staging start seen) := by
  refine .bind (stage_underway backend suffix named unwritten planned inputs) ?_ fun _ _ _ ended => ended
  rintro ⟨staged, rows⟩
  constructor
  rintro area state ⟨rfl, underway⟩
  exact (rest rows).ends area state underway

theorem createOutput_finishes {spec : RelationSpec}
    (inputs : ∀ input ∈ spec.inputs, input = source ∨ input ∈ staging) :
    Staged.Triple backend.recorded (Underway source start staging seen) (Staging.createOutput output spec)
      fun outcome area state => ∃ made, Finished source output staging start seen outcome area state made [] ∧
        ((∃ rows, outcome = .ok rows) → ∀ creation ∈ made, creation.Succeeded) := by
  apply Staged.Triple.createOutput
  rintro area ⟨log, inner⟩ ⟨rfl, made, rfl, rfl, reads, succeeded⟩
  have known := known_inputs succeeded inputs
  simp only [Backend.recorded]
  rcases backend.answer (.create output spec) inner with ⟨reply, after⟩
  let last : Creation := ⟨output, spec, reply⟩
  refine ⟨made ++ [last], ⟨?_, by simp, ?_, reads.append last known, ?_, ?_, ?_⟩, ?_⟩
  · simp [last, Creation.exchange]
  · simp [last]
  · simp only [List.map_append, List.map_cons, List.map_nil, List.append_nil]
    exact Answered.append (succeeded_exchanges succeeded) fun other failed => failed
  · intro all _ error failed
    obtain ⟨rows, claimed⟩ := all last (by simp)
    cases failed.symm.trans claimed
  · simp [last]
  · rintro ⟨rows, written⟩ creation member
    rcases List.mem_append.mp member with member | member
    · exact succeeded creation member
    · exact List.mem_singleton.mp member ▸ ⟨rows, written⟩

theorem createOutput_ends {spec : RelationSpec} (inputs : ∀ input ∈ spec.inputs, input = source ∨ input ∈ staging) :
    Staged.Triple backend.recorded (Underway source start staging seen) (Staging.createOutput output spec)
      (Ended source output staging start seen) where
  ends area state underway := by
    obtain ⟨made, finished, -⟩ := (createOutput_finishes backend inputs).ends area state underway
    exact ⟨made, [], finished⟩

/-- What went well stays well if nothing more is asked for. -/
theorem Finished.settle {area : Staging} {state : List Exchange × σ} {made : List Creation} {rows : Nat}
    (finished : Finished source output staging start seen (.ok rows) area state made [])
    (log : List Exchange × σ) (looks : List Exchange) (outcome : Except Error Nat) (grown : log.1 = state.1 ++ looks)
    (looked : ∀ exchange ∈ looks, exchange.call.Looks)
    (answered : Answered (made.map Creation.exchange ++ looks) outcome)
    (consistent : (∀ exchange ∈ looks, ∃ value, exchange.reply = .ok value) →
      ∀ error, outcome = .error error → error.kind = .consistency) :
    Finished source output staging start seen outcome area log made looks where
  log := by rw [grown, finished.log]; simp
  looked := looked
  created := finished.created
  reads := finished.reads
  answered := answered
  consistent := fun _ => consistent
  area := finished.area
end Work

theorem SamplePlan.unresolvedDraws_kind (plan : SamplePlan) (written : List GroupCount) (total : Nat) :
    (plan.unresolvedDraws written total).kind = .consistency := by
  simp only [unresolvedDraws]
  split <;> rfl

def ValidRequest.stages (valid : ValidRequest) : List String :=
  if valid.withReplacement then ["ranked", "draws"]
  else if valid.strata.isGlobal then ["labeled"] else ["labeled", "thresholds"]

section Plans
variable (backend : Backend σ) (plan : SamplePlan) {start : Staging} {seen : List Exchange}

def SamplePlan.staging (start : Staging) : List RelationName :=
  plan.request.stages.map (Staging.nameOf start.stagingPrefix start.token)

theorem withoutReplacement_ends (unwritten : start.output = none) (mode : plan.request.withReplacement = false) :
    Staged.Triple backend.recorded (Underway plan.request.source start [] seen) plan.withoutReplacement
      (Ended plan.request.source plan.request.output (plan.staging start) start seen) := by
  unfold SamplePlan.withoutReplacement SamplePlan.staging ValidRequest.stages
  by_cases single : plan.request.strata.isGlobal
  · simp only [mode, single, Bool.false_eq_true, if_false, if_true, List.map_cons, List.map_nil]
    refine stage_then backend "labeled" rfl unwritten (by simp) (by simp [RelationSpec.inputs]) fun rows => ?_
    exact createOutput_ends backend (by simp [RelationSpec.inputs])
  · simp only [mode, single, Bool.false_eq_true, if_false, List.map_cons, List.map_nil]
    refine stage_then backend "labeled" rfl unwritten (by simp) (by simp [RelationSpec.inputs]) fun rows => ?_
    refine stage_then backend "thresholds" rfl unwritten (by simp) (by simp [RelationSpec.inputs]) fun rows => ?_
    exact createOutput_ends backend (by simp [RelationSpec.inputs])

theorem withReplacement_ends (unwritten : start.output = none) (mode : plan.request.withReplacement = true) :
    Staged.Triple backend.recorded (Underway plan.request.source start [] seen) plan.withReplacement
      (Ended plan.request.source plan.request.output (plan.staging start) start seen) := by
  unfold SamplePlan.withReplacement SamplePlan.staging ValidRequest.stages
  simp only [mode, if_true, List.map_cons, List.map_nil]
  refine stage_then backend "ranked" rfl unwritten (by simp) (by simp [RelationSpec.inputs]) fun rows => ?_
  refine stage_then backend "draws" rfl unwritten (by simp) (by simp [RelationSpec.inputs]) fun drawn => ?_
  refine .bind (createOutput_finishes backend (by simp [RelationSpec.inputs])) ?_ ?_
  · intro written
    constructor
    rintro area state ⟨made, finished, succeeded⟩
    replace succeeded := succeeded_exchanges (succeeded ⟨written, rfl⟩)
    split
    · rw [Staged.play_bind, Staged.play_groupCounts]
      simp only [Backend.recorded]
      rcases backend.answer (.groupCounts plan.request.output plan.keys) state.2 with ⟨reply, after⟩
      let look : Exchange := ⟨.groupCounts plan.request.output plan.keys, reply⟩
      cases reply with
      | error error =>
        refine ⟨made, [look], finished.settle _ _ _ rfl (by simp [look, Call.Looks]) ?_ ?_⟩
        · exact Answered.append succeeded fun other failed => by cases failed; rfl
        · intro all
          obtain ⟨value, claimed⟩ := all look (by simp)
          cases claimed
      | ok counts =>
        refine ⟨made, [look], finished.settle _ _ _ rfl (by simp [look, Call.Looks]) ?_ ?_⟩
        · exact Answered.append succeeded fun other failed => by cases failed
        · rintro - error failed
          cases failed
          exact plan.unresolvedDraws_kind counts written
    · exact ⟨made, [], finished⟩
  · exact fun error area state ⟨made, finished, _⟩ => ⟨made, [], finished⟩
end Plans

end StratifiedSampling
