import StratifiedSampling.Proofs.CatalogAtomicity

/-! Staging areas under any use. Relations may be staged and outputs created in any order,
under any names and with any success. What was staged is always dropped. An area holds one
output for its own, that of the last attempt, so that outputs of earlier attempts stay even
if nothing is committed. -/

namespace StratifiedSampling

/-- One use of a staging area. -/
inductive StagingStep where
  | stage (suffix : String) (spec : RelationSpec)
  | createOutput (output : RelationName) (spec : RelationSpec)

namespace StagingStep

def run : StagingStep → Staging → Catalog → Except Error Nat × Staging × Catalog
  | stage suffix spec, area, catalog =>
    let ((outcome, area), catalog) := Staged.play Catalog.backend (Staging.stage suffix spec) area catalog
    (outcome.map Prod.snd, area, catalog)
  | createOutput output spec, area, catalog =>
    let ((outcome, area), catalog) := Staged.play Catalog.backend (Staging.createOutput output spec) area catalog
    (outcome, area, catalog)

/-- All steps, each whatever became of those before it. -/
def runAll : List StagingStep → Staging → Catalog → List (Except Error Nat) × Staging × Catalog
  | [], area, catalog => ([], area, catalog)
  | step :: rest, area, catalog =>
    let (reply, area, catalog) := step.run area catalog
    let (replies, area, catalog) := runAll rest area catalog
    (reply :: replies, area, catalog)

def stagedName? (names : String → RelationName) : StagingStep → Option RelationName
  | stage suffix _ => some (names suffix)
  | createOutput .. => none

/-- The names under which some steps stage relations. -/
def stagedNames (names : String → RelationName) (steps : List StagingStep) : List RelationName :=
  steps.filterMap (stagedName? names)

def attempt? : StagingStep × Except Error Nat → Option (RelationName × Except Error Nat)
  | (stage .., _) => none
  | (createOutput output _, reply) => some (output, reply)

/-- The attempts to create an output, with their replies. -/
def attempts (steps : List StagingStep) (replies : List (Except Error Nat)) : List (RelationName × Except Error Nat) :=
  (steps.zip replies).filterMap attempt?

end StagingStep

/-- The outputs that were created, with their numbers of rows. -/
def createdOutputs (attempts : List (RelationName × Except Error Nat)) : List (RelationName × Nat) :=
  attempts.filterMap fun attempt => attempt.2.toOption.map fun rows => (attempt.1, rows)

/-- The output that an area holds for its own: that of the last attempt, unless its name was taken. -/
def heldOutput (attempts : List (RelationName × Except Error Nat)) : Option RelationName :=
  attempts.getLast?.bind fun attempt => Staged.owned attempt.1 attempt.2

/-- Relations beside those that a catalog has, under names that it does not have and that differ. -/
structure Beside (before : Catalog) (made : List (RelationName × Table)) : Prop where
  distinct : (made.map Prod.fst).Nodup
  new : ∀ entry ∈ made, before.contains entry.1 = false

theorem Beside.append {before : Catalog} {made : List (RelationName × Table)} {name : RelationName}
    (beside : Beside before made) (absent : (before.with_ made).contains name = false) (table : Table) :
    Beside before (made ++ [(name, table)]) := by
  rw [Catalog.contains_with, Bool.or_eq_false_iff] at absent
  constructor
  · rw [List.map_append]
    refine List.nodup_append.mpr ⟨beside.distinct, by simp, ?_⟩
    intro first listed second last same
    obtain ⟨entry, member, rfl⟩ := List.mem_map.mp listed
    have apart := List.any_eq_false.mp absent.2 entry member
    exact apart (beq_iff_eq.mpr (same.trans (List.mem_singleton.mp last)))
  · intro entry member
    rcases List.mem_append.mp member with member | member
    · exact beside.new entry member
    · rw [List.mem_singleton.mp member]
      exact absent.1

/-- An area in use. The catalog has grown by what was staged under the reserved names, which
the area knows, and by the outputs that were created. -/
structure InUse (before : Catalog) (names : String → RelationName) (reserved : List RelationName)
    (attempts : List (RelationName × Except Error Nat)) (area : Staging) (catalog : Catalog) : Prop where
  named : Staging.nameOf area.stagingPrefix area.token = names
  uncommitted : area.committed = false
  staged : ∀ name ∈ area.staged, name ∈ reserved
  held : area.output = heldOutput attempts
  free : ∀ name, area.output = some name → before.contains name = false
  added : ∃ made, catalog = before.with_ made ∧ Beside before made ∧
    (∀ entry ∈ made, entry.1 ∈ reserved → entry.1 ∈ area.staged) ∧
    (made.filter fun entry => !reserved.contains entry.1).map (fun entry => (entry.1, entry.2.rowCount)) =
      createdOutputs attempts

namespace InUse

variable {before : Catalog} {names : String → RelationName} {reserved : List RelationName}
  {attempts : List (RelationName × Except Error Nat)} {area : Staging} {catalog : Catalog}

theorem stage (inUse : InUse before names reserved attempts area catalog) {suffix : String} (spec : RelationSpec)
    (known : names suffix ∈ reserved) :
    InUse before names reserved attempts ((StagingStep.stage suffix spec).run area catalog).2.1
      ((StagingStep.stage suffix spec).run area catalog).2.2 := by
  obtain ⟨rfl, uncommitted, staged, held, free, made, rfl, beside, tracked, created⟩ := inUse
  have stagedNow : ∀ name ∈ area.staged ++ [Staging.nameOf area.stagingPrefix area.token suffix], name ∈ reserved := by
    intro name member
    rcases List.mem_append.mp member with member | member
    · exact staged name member
    · exact List.mem_singleton.mp member ▸ known
  simp only [StagingStep.run, Staged.play_stage]
  rcases Catalog.create_cases (before.with_ made) (Staging.nameOf area.stagingPrefix area.token suffix) spec with
    ⟨error, -, reply⟩ | ⟨table, absent, -, reply⟩
  · rw [reply]
    exact ⟨rfl, uncommitted, stagedNow, held, free, made, rfl, beside,
      fun entry member listed => List.mem_append_left _ (tracked entry member listed), created⟩
  · rw [reply]
    refine ⟨rfl, uncommitted, stagedNow, held, free, _, Catalog.with_with .., beside.append absent table, ?_, ?_⟩
    · intro entry member listed
      rcases List.mem_append.mp member with member | member
      · exact List.mem_append_left _ (tracked entry member listed)
      · simp [List.mem_singleton.mp member]
    · rw [← created, List.filter_append]
      simp [known]

theorem createOutput (inUse : InUse before names reserved attempts area catalog) {output : RelationName}
    (spec : RelationSpec) (apart : output ∉ reserved) :
    InUse before names reserved (attempts ++ [(output, ((StagingStep.createOutput output spec).run area catalog).1)])
      ((StagingStep.createOutput output spec).run area catalog).2.1
      ((StagingStep.createOutput output spec).run area catalog).2.2 := by
  obtain ⟨named, uncommitted, staged, -, -, made, rfl, beside, tracked, created⟩ := inUse
  have heldNow : ∀ reply, Staged.owned output reply = heldOutput (attempts ++ [(output, reply)]) := fun reply => by
    rw [heldOutput, List.getLast?_concat]
    rfl
  simp only [StagingStep.run, Staged.play_createOutput]
  rcases Catalog.create_cases (before.with_ made) output spec with ⟨error, taken, reply⟩ | ⟨table, absent, -, reply⟩
  · rw [reply]
    refine ⟨named, uncommitted, staged, heldNow (.error error), ?_, made, rfl, beside, tracked, ?_⟩
    · intro name owned
      -- An output that the area keeps although it was not created was refused for another reason than its name.
      cases present : (before.with_ made).contains output with
      | true =>
        rw [taken present] at owned
        cases owned
      | false =>
        have same : output = name := by
          simp only [Staged.owned] at owned
          split at owned
          · cases owned
          · exact Option.some.inj owned
        rw [Catalog.contains_with, Bool.or_eq_false_iff] at present
        exact same ▸ present.1
    · simpa [createdOutputs, Except.toOption] using created
  · rw [reply]
    refine ⟨named, uncommitted, staged, heldNow (.ok table.rowCount), ?_, _, Catalog.with_with .., beside.append absent table, ?_, ?_⟩
    · rintro name ⟨⟩
      rw [Catalog.contains_with, Bool.or_eq_false_iff] at absent
      exact absent.1
    · intro entry member listed
      rcases List.mem_append.mp member with member | member
      · exact tracked entry member listed
      · rw [List.mem_singleton.mp member] at listed
        exact absurd listed apart
    · rw [List.filter_append, List.map_append, created]
      simp [createdOutputs, Except.toOption, apart]

theorem runAll {steps : List StagingStep} (inUse : InUse before names reserved attempts area catalog)
    (stages : ∀ name ∈ StagingStep.stagedNames names steps, name ∈ reserved)
    (creates : ∀ output spec, .createOutput output spec ∈ steps → output ∉ reserved) {replies : List (Except Error Nat)}
    {used : Staging} {worked : Catalog} (ran : StagingStep.runAll steps area catalog = (replies, used, worked)) :
    InUse before names reserved (attempts ++ StagingStep.attempts steps replies) used worked := by
  induction steps generalizing attempts area catalog replies with
  | nil =>
    cases ran
    simpa [StagingStep.attempts] using inUse
  | cons step rest ih =>
    rw [StagingStep.runAll] at ran
    rcases stepped : step.run area catalog with ⟨reply, middle, state⟩
    simp only [stepped] at ran
    rcases continued : StagingStep.runAll rest middle state with ⟨others, used, worked⟩
    simp only [continued] at ran
    cases ran
    have laterCreates : ∀ output spec, .createOutput output spec ∈ rest → output ∉ reserved := fun output spec member =>
      creates output spec (List.mem_cons_of_mem _ member)
    cases step with
    | stage suffix spec =>
      have after := inUse.stage spec (stages (names suffix) List.mem_cons_self)
      rw [stepped] at after
      exact ih after (fun name member => stages name (List.mem_cons_of_mem _ member)) laterCreates continued
    | createOutput output spec =>
      have after := inUse.createOutput spec (creates output spec List.mem_cons_self)
      rw [stepped] at after
      have whole := ih after stages laterCreates continued
      rwa [List.append_assoc] at whole

/-- Closing an area leaves the outputs, but for the one that it holds if nothing was committed. -/
theorem closed (inUse : InUse before names reserved attempts area catalog)
    (fresh : ∀ name ∈ reserved, before.contains name = false) :
    ∃ outputs, outputs.map (fun entry => (entry.1, entry.2.rowCount)) = createdOutputs attempts ∧
      (∀ entry ∈ outputs, catalog.table? entry.1 = some entry.2) ∧
      (Catalog.backend.run area.commit.close catalog).2 = before.with_ outputs ∧
      (Catalog.backend.run area.close catalog).2 =
        before.with_ (outputs.filter fun entry => decide (heldOutput attempts ≠ some entry.1)) := by
  obtain ⟨-, uncommitted, staged, held, free, made, rfl, beside, tracked, created⟩ := inUse
  have reservedStaged : made.filter (fun entry => !reserved.contains entry.1) =
      made.filter fun entry => !area.staged.contains entry.1 := by
    refine List.filter_congr fun entry member => ?_
    have same : entry.1 ∈ reserved ↔ entry.1 ∈ area.staged := ⟨tracked entry member, staged entry.1⟩
    simp [same]
  refine ⟨made.filter fun entry => !reserved.contains entry.1, created, ?_, ?_, ?_⟩
  · intro entry member
    have listed := (List.mem_filter.mp member).1
    exact Catalog.table?_with_of_mem (beside.new entry listed) beside.distinct listed
  · have leftovers : area.commit.leftovers = area.staged.reverse := by simp [Staging.leftovers, Staging.commit]
    rw [Staging.close, leftovers, Catalog.drop_with _ fun name member => fresh name (staged name (by simpa using member)),
      reservedStaged]
    simp
  · have leftovers : area.leftovers = area.staged.reverse ++ area.output.toList := by
      simp [Staging.leftovers, uncommitted]
    have absent : ∀ name ∈ area.leftovers, before.contains name = false := by
      rw [leftovers]
      intro name member
      rcases List.mem_append.mp member with member | member
      · exact fresh name (staged name (by simpa using member))
      · exact free name (by simpa using member)
    rw [Staging.close, Catalog.drop_with _ absent, leftovers, reservedStaged, List.filter_filter, ← held]
    congr 1
    refine List.filter_congr fun entry _ => ?_
    cases area.output with
    | none => simp
    | some output => simp [eq_comm, Bool.and_comm]

end InUse

theorem heldOutput_of_single {attempts : List (RelationName × Except Error Nat)} (single : attempts.length ≤ 1) :
    ∀ output ∈ createdOutputs attempts, heldOutput attempts = some output.1 := by
  rcases attempts with _ | ⟨⟨name, reply⟩, _ | ⟨next, rest⟩⟩
  · simp [createdOutputs]
  · cases reply <;> simp [createdOutputs, Except.toOption, heldOutput, Staged.owned]
  · simp at single

/-- Whatever is done through an area whose names are fresh, closing it after a commit leaves the
catalog as it was and the outputs that were created, and nothing else. Without a commit, all
outputs stay but the one of the last attempt, unless that found its name taken. So the catalog
is brought back where only one output was attempted. -/
theorem staging_leaves {before worked : Catalog} {stagingPrefix : String} {token : Token} {steps : List StagingStep}
    {replies : List (Except Error Nat)} {area : Staging}
    (fresh : ∀ name ∈ StagingStep.stagedNames (Staging.nameOf (Text.trim stagingPrefix) token) steps,
      before.contains name = false)
    (apart : ∀ output spec, .createOutput output spec ∈ steps →
      output ∉ StagingStep.stagedNames (Staging.nameOf (Text.trim stagingPrefix) token) steps)
    (ran : StagingStep.runAll steps (.start stagingPrefix token) before = (replies, area, worked)) :
    ∃ outputs, outputs.map (fun entry => (entry.1, entry.2.rowCount)) =
        createdOutputs (StagingStep.attempts steps replies) ∧
      (∀ entry ∈ outputs, worked.table? entry.1 = some entry.2) ∧
      (Catalog.backend.run area.commit.close worked).2 = before.with_ outputs ∧
      (Catalog.backend.run area.close worked).2 = before.with_ (outputs.filter fun entry =>
        decide (heldOutput (StagingStep.attempts steps replies) ≠ some entry.1)) ∧
      ((StagingStep.attempts steps replies).length ≤ 1 → (Catalog.backend.run area.close worked).2 = before) := by
  have start : InUse before (Staging.nameOf (Text.trim stagingPrefix) token)
      (StagingStep.stagedNames (Staging.nameOf (Text.trim stagingPrefix) token) steps) []
      (.start stagingPrefix token) before :=
    ⟨rfl, rfl, by simp [Staging.start], rfl, nofun, [], by simp, ⟨by simp, by simp⟩, by simp, rfl⟩
  have inUse := start.runAll (fun name member => member) apart ran
  rw [List.nil_append] at inUse
  obtain ⟨outputs, created, stored, committed, abandoned⟩ := inUse.closed fresh
  refine ⟨outputs, created, stored, committed, abandoned, fun single => ?_⟩
  have none : outputs.filter (fun entry => decide (heldOutput (StagingStep.attempts steps replies) ≠ some entry.1)) = [] := by
    refine List.filter_eq_nil_iff.mpr fun entry member => ?_
    have listed : (entry.1, entry.2.rowCount) ∈ createdOutputs (StagingStep.attempts steps replies) :=
      created ▸ List.mem_map_of_mem member
    simp [heldOutput_of_single single _ listed]
  rw [abandoned, none, Catalog.with_nil]

namespace ThreeSales

/-- A staged copy of the sales, and an output that is created twice. -/
def outputTwice : List StagingStep :=
  [.stage "ids" (.project name ["id"]), .createOutput output (.project name ["id"]),
    .createOutput output (.project name ["region"])]

/-- Nothing is committed, and still the output stays: on the second attempt the area finds the
name taken, and from then on holds its own output for someone else's. -/
theorem created_twice_stays :
    let used := StagingStep.runAll outputTwice (.start "stage" "t1") catalog
    used.1 = [.ok 3, .ok 3, .error (.alreadyExists "sample")] ∧
      (Catalog.backend.run used.2.1.close used.2.2).2 ≠ catalog := by
  intro used
  have stays : (Catalog.backend.run used.2.1.close used.2.2).2.contains output = true := by decide +kernel
  refine ⟨rfl, fun same => ?_⟩
  rw [same] at stays
  exact absurd stays (by decide)

theorem abandoned_output : ∃ area worked,
    StagingStep.runAll (outputTwice.take 2) (.start "stage" "t1") catalog = ([.ok 3, .ok 3], area, worked) ∧
    (Catalog.backend.run area.close worked).2 = catalog := by
  have fresh : ∀ name ∈ StagingStep.stagedNames (Staging.nameOf (Text.trim "stage") "t1") (outputTwice.take 2),
      catalog.contains name = false := by decide
  have apart : ∀ name spec, .createOutput name spec ∈ outputTwice.take 2 →
      name ∉ StagingStep.stagedNames (Staging.nameOf (Text.trim "stage") "t1") (outputTwice.take 2) := by
    intro name spec member
    simp only [outputTwice, List.take_succ_cons, List.take_zero, List.mem_cons, reduceCtorEq,
      StagingStep.createOutput.injEq, List.not_mem_nil, or_false, false_or] at member
    rw [member.1]
    decide
  obtain ⟨outputs, -, -, -, -, single⟩ := staging_leaves fresh apart rfl
  exact ⟨_, _, rfl, single (by decide)⟩

end ThreeSales

end StratifiedSampling
