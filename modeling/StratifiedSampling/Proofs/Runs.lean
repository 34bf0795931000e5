import StratifiedSampling.Proofs.StagingNames
import StratifiedSampling.Sampling.Sampler

/-! Runs of programs. A run of a sequence is the run of its first part and then of what
that leads to, and an error ends an attempt where it arises. Assertions about staged
programs speak of the staging area and of the backend's state together, because the
area outlives an error. -/

namespace StratifiedSampling

variable {σ : Type}

namespace Call

def Looks : Call → Prop
  | create .. => False
  | drop _ => False
  | _ => True

def Drops : Call → Prop
  | drop _ => True
  | _ => False

theorem Looks.not_drops {call : Call} (looks : call.Looks) : ¬call.Drops := by
  cases call <;> first | exact looks.elim | exact not_false

end Call

namespace Program

/-- Every call that a program can come to make is of some kind. -/
inductive Uses (allowed : Call → Prop) : Program α → Prop where
  | done {result : α} : Uses allowed (.done result)
  | request {call : Call} {next : Except Error call.Reply → Program α}
      (call_allowed : allowed call) (rest : ∀ reply, Uses allowed (next reply)) :
      Uses allowed (.request call next)

theorem Uses.bind {allowed : Call → Prop} {program : Program α} {next : α → Program β}
    (uses : Uses allowed program) (rest : ∀ value, Uses allowed (next value)) :
    Uses allowed (program.bind next) := by
  induction uses with
  | done => exact rest _
  | request call_allowed _ ih => exact .request call_allowed ih

end Program

namespace Backend

theorem run_bind (backend : Backend σ) (program : Program α) (next : α → Program β) (state : σ) :
    backend.run (program.bind next) state =
      backend.run (next (backend.run program state).1) (backend.run program state).2 := by
  induction program generalizing state with
  | done result => rfl
  | request call rest ih => exact ih _ _

theorem run_eq_of_uses {backend other : Backend σ} {allowed : Call → Prop} {program : Program α}
    (agree : ∀ call state, allowed call → other.answer call state = backend.answer call state)
    (uses : program.Uses allowed) (state : σ) : other.run program state = backend.run program state := by
  induction uses generalizing state with
  | done => rfl
  | @request call next call_allowed rest ih =>
    simp only [run, agree call state call_allowed]
    exact ih _ _

/-- A property of states that allowed calls keep is kept by a program of such calls. -/
theorem run_keeps {backend : Backend σ} {allowed : Call → Prop} {kept : σ → Prop} {program : Program α}
    (step : ∀ call state, allowed call → kept state → kept (backend.answer call state).2)
    (uses : program.Uses allowed) {state : σ} (holds : kept state) :
    kept (backend.run program state).2 := by
  induction uses generalizing state with
  | done => exact holds
  | request call_allowed rest ih => exact ih _ (step _ _ call_allowed holds)

def attempt (backend : Backend σ) (program : Attempt α) (state : σ) : Except Error α × σ :=
  backend.run program.run state

theorem attempt_bind (backend : Backend σ) (program : Attempt α) (next : α → Attempt β) (state : σ) :
    backend.attempt (program >>= next) state =
      match backend.attempt program state with
      | (.ok value, after) => backend.attempt (next value) after
      | (.error error, after) => (.error error, after) := by
  unfold attempt
  change backend.run (Program.bind program.run _) state = _
  rw [run_bind]
  rcases backend.run program.run state with ⟨outcome, after⟩
  cases outcome <;> rfl

theorem attempt_bind_ok {backend : Backend σ} {program : Attempt α} {next : α → Attempt β} {state after : σ}
    {value : α} (ran : backend.attempt program state = (.ok value, after)) :
    backend.attempt (program >>= next) state = backend.attempt (next value) after := by
  rw [attempt_bind, ran]

theorem attempt_bind_error {backend : Backend σ} {program : Attempt α} {next : α → Attempt β} {state after : σ}
    {error : Error} (ran : backend.attempt program state = (.error error, after)) :
    backend.attempt (program >>= next) state = (.error error, after) := by
  rw [attempt_bind, ran]

theorem attempt_bind_eq_ok {backend : Backend σ} {program : Attempt α} {next : α → Attempt β}
    {state final : σ} {result : β} (whole : backend.attempt (program >>= next) state = (.ok result, final)) :
    ∃ value after, backend.attempt program state = (.ok value, after) ∧
      backend.attempt (next value) after = (.ok result, final) := by
  rw [attempt_bind] at whole
  cases ran : backend.attempt program state with
  | mk outcome after =>
    rw [ran] at whole
    cases outcome with
    | error error => cases whole
    | ok value => exact ⟨value, after, rfl, whole⟩

@[simp] theorem attempt_settled (backend : Backend σ) (outcome : Except Error α) (state : σ) :
    backend.attempt (.settled outcome) state = (outcome, state) := rfl

end Backend

/-- An attempt that looks at the backend and ends with the first error it is answered. -/
inductive Peeks : Program (Except Error α) → Prop where
  | done {outcome : Except Error α} : Peeks (.done outcome)
  | request {call : Call} {next : Except Error call.Reply → Program (Except Error α)} (looks : call.Looks)
      (ends : ∀ error, next (.error error) = .done (.error error)) (rest : ∀ value, Peeks (next (.ok value))) :
      Peeks (.request call next)

namespace Peeks

theorem uses {program : Program (Except Error α)} (peeks : Peeks program) : program.Uses Call.Looks := by
  induction peeks with
  | done => exact .done
  | request looks ends _ ih =>
    refine .request looks fun reply => ?_
    cases reply with
    | error error => rw [ends]; exact .done
    | ok value => exact ih value

theorem settled (outcome : Except Error α) : Peeks (Attempt.settled outcome).run := .done

theorem throw (error : Error) : Peeks (throw error : Attempt α).run := .done

theorem call {call : Call} (looks : call.Looks) : Peeks (Attempt.call call).run :=
  .request looks (fun _ => rfl) fun _ => .done

theorem bind {program : Attempt α} {next : α → Attempt β} (first : Peeks program.run)
    (rest : ∀ value, Peeks (next value).run) : Peeks (program >>= next).run := by
  have sequence : ∀ tree : Program (Except Error α), Peeks tree → Peeks (tree.bind (ExceptT.bindCont next)) := by
    intro tree peeks
    induction peeks with
    | @done outcome =>
      cases outcome with
      | error error => exact .done
      | ok value => exact rest value
    | request looks ends _ ih => exact .request looks (fun error => by simp only [ends]; rfl) ih
  exact sequence _ first

theorem check {condition : Prop} [Decidable condition] {error : Error} {next : PUnit → Attempt β}
    (rest : ∀ checked, Peeks (next checked).run) :
    Peeks (if condition then MonadExcept.throw error >>= next else next ⟨⟩ : Attempt β).run := by
  split
  · exact .bind (.throw error) rest
  · exact rest ⟨⟩

end Peeks

namespace Staged

def play (backend : Backend σ) (program : Staged α) (area : Staging) (state : σ) :
    (Except Error α × Staging) × σ :=
  backend.run (program.run.run area) state

theorem play_bind (backend : Backend σ) (program : Staged α) (next : α → Staged β) (area : Staging)
    (state : σ) :
    play backend (program >>= next) area state =
      match play backend program area state with
      | ((.ok value, after), state) => play backend (next value) after state
      | ((.error error, after), state) => ((.error error, after), state) := by
  unfold play
  change backend.run (Program.bind (program.run.run area) _) state = _
  rw [Backend.run_bind]
  rcases backend.run (program.run.run area) state with ⟨⟨outcome, after⟩, state⟩
  cases outcome <;> rfl

/-- A staged relation is asked for under its name in the area, and counts as staged in any case. -/
theorem play_stage (backend : Backend σ) (suffix : String) (spec : RelationSpec) (area : Staging) (state : σ) :
    play backend (Staging.stage suffix spec) area state =
      let name := Staging.nameOf area.stagingPrefix area.token suffix
      (((backend.answer (.create name spec) state).1.map fun rows : Nat => (name, rows),
        { area with staged := area.staged ++ [name] }), (backend.answer (.create name spec) state).2) := by
  simp only [play, Staging.stage, ExceptT.run_mk, StateT.run, Staging.name_eq]
  rfl

/-- The area takes the output for its own, unless the reply is that the name is taken. -/
def owned (output : RelationName) : Except Error Nat → Option RelationName
  | .error error => if error.kind = .alreadyExists then none else some output
  | .ok _ => some output

theorem play_createOutput (backend : Backend σ) (output : RelationName) (spec : RelationSpec)
    (area : Staging) (state : σ) :
    play backend (Staging.createOutput output spec) area state =
      (((backend.answer (.create output spec) state).1,
        { area with output := owned output (backend.answer (.create output spec) state).1 }),
        (backend.answer (.create output spec) state).2) := by
  simp only [play, Staging.createOutput, ExceptT.run_mk, StateT.run, Backend.run]
  cases answered : (backend.answer (.create output spec) state).1 <;> rfl

theorem play_groupCounts (backend : Backend σ) (name : RelationName) (groupBy : List String)
    (area : Staging) (state : σ) :
    play backend (Staging.groupCounts name groupBy) area state =
      (((backend.answer (.groupCounts name groupBy) state).1, area),
        (backend.answer (.groupCounts name groupBy) state).2) := rfl

/-- From any area and state that meet the precondition, the outcome, the area and the state
that a program ends with meet the postcondition. -/
structure Triple (backend : Backend σ) (pre : Staging → σ → Prop) (program : Staged α)
    (post : Except Error α → Staging → σ → Prop) : Prop where
  ends : ∀ area state, pre area state →
    post (play backend program area state).1.1 (play backend program area state).1.2
      (play backend program area state).2

variable {backend : Backend σ}

theorem Triple.bind {pre : Staging → σ → Prop} {program : Staged α} {next : α → Staged β}
    {middle : Except Error α → Staging → σ → Prop} {post : Except Error β → Staging → σ → Prop}
    (first : Triple backend pre program middle)
    (rest : ∀ value, Triple backend (middle (.ok value)) (next value) post)
    (failed : ∀ error area state, middle (.error error) area state → post (.error error) area state) :
    Triple backend pre (program >>= next) post := by
  constructor
  intro area state holds
  have reached := first.ends area state holds
  rw [play_bind]
  revert reached
  rcases play backend program area state with ⟨⟨outcome, after⟩, final⟩
  intro reached
  cases outcome with
  | ok value => exact (rest value).ends after final reached
  | error error => exact failed error after final reached

theorem Triple.stage {pre : Staging → σ → Prop} {suffix : String} {spec : RelationSpec}
    {post : Except Error (RelationName × Nat) → Staging → σ → Prop}
    (created : ∀ area state, pre area state →
      let name := Staging.nameOf area.stagingPrefix area.token suffix
      post ((backend.answer (.create name spec) state).1.map fun rows : Nat => (name, rows))
        { area with staged := area.staged ++ [name] } (backend.answer (.create name spec) state).2) :
    Triple backend pre (Staging.stage suffix spec) post := by
  constructor
  intro area state holds
  rw [play_stage]
  exact created area state holds

theorem Triple.createOutput {pre : Staging → σ → Prop} {output : RelationName} {spec : RelationSpec}
    {post : Except Error Nat → Staging → σ → Prop}
    (created : ∀ area state, pre area state →
      post (backend.answer (.create output spec) state).1
        { area with output := owned output (backend.answer (.create output spec) state).1 }
        (backend.answer (.create output spec) state).2) :
    Triple backend pre (Staging.createOutput output spec) post := by
  constructor
  intro area state holds
  rw [play_createOutput]
  exact created area state holds

end Staged

end StratifiedSampling
