import StratifiedSampling.Sampling.Request
import StratifiedSampling.Sampling.Staging

/-! How a sample is made of bulk operations. Without replacement every row gets a random
label; of each stratum the rows up to the nearest-rank quantile of its labels are kept,
of the global stratum the rows with the smallest labels. With replacement the rows of a
stratum are numbered, numbers are drawn, and every draw is joined to its row. -/

namespace StratifiedSampling

inductive SamplingStrategy where
  | withoutReplacement
  | withReplacement
  deriving DecidableEq

namespace SamplingStrategy

def name : SamplingStrategy → String
  | withoutReplacement => "without_replacement"
  | withReplacement => "with_replacement"

def ofRequest (withReplacement : Bool) : SamplingStrategy :=
  if withReplacement then .withReplacement else .withoutReplacement

end SamplingStrategy

/-- A name that is not taken: the base itself, or the base with the least number from one
on. One more candidate than there are taken names is always enough. -/
def freshColumn (base : String) (taken : List String) : String :=
  if taken.contains base then
    let numbered := (List.range taken.length).map fun index => base ++ "_" ++ toString (index + 1)
    (numbered.find? fun candidate => !taken.contains candidate).getD base
  else base

structure SamplePlan where
  request : ValidRequest
  seed : UInt64
  strataSizes : List GroupCount

namespace SamplePlan

def totalRows (plan : SamplePlan) : Nat :=
  GroupCount.total plan.strataSizes

def keys (plan : SamplePlan) : List String :=
  plan.request.strata.columns

def fresh (plan : SamplePlan) (base : String) : String :=
  freshColumn base plan.request.sourceColumns

/-- The rows of the global stratum with the smallest labels, as many as draws would be taken. -/
def takeSmallest (plan : SamplePlan) (labeled : RelationName) (label : String) : Staged Nat :=
  Staging.createOutput plan.request.output
    (.sortLimit labeled label (Counts.drawCount plan.totalRows plan.request.proportion) plan.request.outputColumns)

def takeUpToThreshold (plan : SamplePlan) (labeled : RelationName) (label : String) : Staged Nat := do
  let threshold := plan.fresh "__strata_threshold"
  let (thresholds, _) ← Staging.stage "thresholds"
    (.groupQuantile labeled plan.keys label plan.request.proportion threshold)
  Staging.createOutput plan.request.output
    (.join labeled thresholds plan.keys (some ⟨.lessEq, label, threshold⟩) plan.request.outputColumns)

def withoutReplacement (plan : SamplePlan) : Staged Nat := do
  let label := plan.fresh "__strata_label"
  let (labeled, _) ← Staging.stage "labeled" (.randomLabel plan.request.source label plan.seed)
  if plan.request.strata.isGlobal then plan.takeSmallest labeled label
  else plan.takeUpToThreshold labeled label

def expectedDraws (plan : SamplePlan) : Nat :=
  GroupCount.totalBy (fun stratum => Counts.drawCount stratum.count plan.request.proportion) plan.strataSizes

def writtenFor (written : List GroupCount) (key : List Value) : Nat :=
  ((written.find? fun group => sameCells group.key key).map GroupCount.count).getD 0

/-- The first stratum of the source with more or fewer rows in the output than draws. -/
def unresolvedDraws (plan : SamplePlan) (written : List GroupCount) (totalWritten : Nat) : Error :=
  let draws (stratum : GroupCount) : Nat := Counts.drawCount stratum.count plan.request.proportion
  match plan.strataSizes.find? fun stratum => writtenFor written stratum.key != draws stratum with
  | some stratum =>
    let expected := draws stratum
    let actual := writtenFor written stratum.key
    .consistency (describeKey plan.keys stratum.key) s!"{expected} draws resolved to {actual} rows"
  | none =>
    let expected := plan.expectedDraws
    .consistency (describeKey plan.keys []) s!"{expected} draws resolved to {totalWritten} rows"

def withReplacement (plan : SamplePlan) : Staged Nat := do
  let rank := plan.fresh "__strata_rank"
  let draw := plan.fresh "__strata_draw"
  let (ranked, _) ← Staging.stage "ranked" (.rowNumber plan.request.source plan.keys rank)
  let (draws, drawn) ← Staging.stage "draws"
    (.groupDraws plan.request.source plan.keys plan.request.proportion draw plan.seed)
  let written ← Staging.createOutput plan.request.output
    (.join ranked draws plan.keys (some ⟨.equal, rank, draw⟩) plan.request.outputColumns)
  if written ≠ plan.expectedDraws ∨ drawn ≠ plan.expectedDraws then
    let counts ← Staging.groupCounts plan.request.output plan.keys
    throw (plan.unresolvedDraws counts written)
  return written

def execute (plan : SamplePlan) : SamplingStrategy → Staged Nat
  | .withoutReplacement => plan.withoutReplacement
  | .withReplacement => plan.withReplacement

end SamplePlan

end StratifiedSampling
