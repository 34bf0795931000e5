import StratifiedSampling.Proofs.IntactTables
import StratifiedSampling.Proofs.TableCells

/-! A join finds what comparing every left row with every right row finds: the pairs of rows
with equal columns that satisfy the predicate, by the left position and then by the right. It
succeeds exactly if its columns can be found and the projected names are different. -/

namespace StratifiedSampling

/-- Whether two values compare as a predicate asks. NULL compares with nothing. -/
def Comparison.holds (comparison : Comparison) (left right : Value) : Bool :=
  !left.isNull && !right.isNull &&
    match comparison with
    | .equal => left.same right
    | .lessEq => left.order right != .gt

namespace Table

/-- Whether a left and a right row are joined. NULL is equal to NULL in the columns `on`. -/
def joins (left right : Table) (on : List String) (predicate : Option JoinPredicate) (leftRow rightRow : Nat) : Bool :=
  on.all (fun name => (left.cell name leftRow).same (right.cell name rightRow)) &&
    predicate.all fun condition =>
      condition.comparison.holds (left.cell condition.left leftRow) (right.cell condition.right rightRow)

def nestedPairs (left right : Table) (on : List String) (predicate : Option JoinPredicate) : List (Nat × Nat) :=
  nestedLoop (joins left right on predicate) left.rowCount right.rowCount

/-- A projected column is that of the left table if there is one of its name. -/
def joinedCell (left right : Table) (pair : Nat × Nat) (name : String) : Value :=
  if name ∈ left.schema.names then left.cell name pair.1 else right.cell name pair.2

def joinedField? (left right : Table) (name : String) : Option Field :=
  (left.schema.find? name).or (right.schema.find? name)

/-- What a join asks of its arguments. -/
structure Joinable (left right : Table) (on : List String) (predicate : Option JoinPredicate)
    (project : List String) : Prop where
  filled : project ≠ []
  distinct : project.Nodup
  known : ∀ name ∈ project, name ∈ left.schema.names ∨ name ∈ right.schema.names
  onLeft : ∀ name ∈ on, name ∈ left.schema.names
  onRight : ∀ name ∈ on, name ∈ right.schema.names
  compared : ∀ condition, predicate = some condition →
    condition.left ∈ left.schema.names ∧ condition.right ∈ right.schema.names

section Loop
variable {property : Nat → Nat → Bool} {leftCount rightCount : Nat}

/-- No pair is found twice, and pairs are found by the left position and then by the right. -/
theorem pairwise_nestedLoop : (nestedLoop property leftCount rightCount).Pairwise (Prod.Lex (· < ·) (· < ·)) := by
  apply List.pairwise_flatMap.mpr
  constructor
  · intro leftRow _
    rw [List.pairwise_map]
    apply (List.pairwise_lt_range.filter _).imp
    intro first second before
    exact .right leftRow before
  · apply List.pairwise_lt_range.imp
    intro first second before firstPair firstListed secondPair secondListed
    obtain ⟨_, -, rfl⟩ := List.mem_map.mp firstListed
    obtain ⟨_, -, rfl⟩ := List.mem_map.mp secondListed
    exact .left _ _ before

theorem nestedLoop_congr {other : Nat → Nat → Bool}
    (each : ∀ leftRow rightRow, property leftRow rightRow = other leftRow rightRow) :
    nestedLoop property leftCount rightCount = nestedLoop other leftCount rightCount :=
  congrArg (fun property => nestedLoop property leftCount rightCount) (funext fun leftRow => funext (each leftRow))

theorem matched_equal (left right : List Column × Column) (leftRow rightRow : Nat) :
    matched ⟨left.1, some left.2⟩ ⟨right.1, some right.2⟩ (fun _ _ => true) leftRow rightRow =
      ((keyAt left.1 leftRow == keyAt right.1 rightRow) &&
        Comparison.equal.holds (left.2.value leftRow) (right.2.value rightRow)) := by
  simp only [matched, JoinKey.at?, Comparison.holds]
  cases (left.2.value leftRow).isNull with
  | true => simp
  | false =>
    cases (right.2.value rightRow).isNull with
    | true => simp
    | false =>
      simp only [Bool.false_eq_true, if_false, Option.any_some, Bool.and_true, Bool.not_false]
      rw [BEq.comm]
      exact sameCells_append _ _ _ _

theorem matched_unequated (leftKeys rightKeys : List Column) (filter : Nat → Nat → Bool) (leftRow rightRow : Nat) :
    matched ⟨leftKeys, none⟩ ⟨rightKeys, none⟩ filter leftRow rightRow =
      ((keyAt leftKeys leftRow == keyAt rightKeys rightRow) && filter leftRow rightRow) := by
  rw [BEq.comm]
  rfl

theorem matchedPairs_eq (comparison : Comparison) (left right : List Column × Column) :
    matchedPairs comparison left right leftCount rightCount =
      nestedLoop (fun leftRow rightRow => (keyAt left.1 leftRow == keyAt right.1 rightRow) &&
        comparison.holds (left.2.value leftRow) (right.2.value rightRow)) leftCount rightCount := by
  cases comparison with
  | equal =>
    rw [matchedPairs, joinPairs_eq]
    exact nestedLoop_congr (matched_equal left right)
  | lessEq =>
    rw [matchedPairs, joinPairs_eq]
    exact nestedLoop_congr (matched_unequated left.1 right.1 _)

end Loop

section Entries
variable {lefts rights : Entries} {leftCount rightCount : Nat} {on : List String}

/-- Rows have equal columns if they have equal keys. -/
theorem all_same_eq (onLeft : ∀ name ∈ on, name ∈ lefts.names) (onRight : ∀ name ∈ on, name ∈ rights.names)
    (leftRow rightRow : Nat) :
    on.all (fun name => ((ofEntries lefts leftCount).cell name leftRow).same
      ((ofEntries rights rightCount).cell name rightRow)) =
        (keyAt (lefts.select on).columns leftRow == keyAt (rights.select on).columns rightRow) := by
  rw [← sameCells_map]
  exact congrArg₂ sameCells (cellsAt_eq leftCount onLeft leftRow) (cellsAt_eq rightCount onRight rightRow)

theorem pairing_eq (onLeft : ∀ name ∈ on, name ∈ lefts.names) (onRight : ∀ name ∈ on, name ∈ rights.names)
    {predicate : Option JoinPredicate} (compared : ∀ condition, predicate = some condition →
      condition.left ∈ lefts.names ∧ condition.right ∈ rights.names) :
    pairing (ofEntries lefts leftCount) (ofEntries rights rightCount) on predicate =
      .ok (nestedPairs (ofEntries lefts leftCount) (ofEntries rights rightCount) on predicate) := by
  cases predicate with
  | none =>
    rw [pairing_none onLeft onRight, joinPairs_eq]
    apply congrArg Except.ok
    apply nestedLoop_congr
    intro leftRow rightRow
    rw [matched_unequated, joins, all_same_eq onLeft onRight]
    rfl
  | some condition =>
    obtain ⟨leftListed, rightListed⟩ := compared condition rfl
    obtain ⟨leftEntry, leftFound⟩ := Entries.lookup?_of_mem_names leftListed
    obtain ⟨rightEntry, rightFound⟩ := Entries.lookup?_of_mem_names rightListed
    rw [pairing_some onLeft onRight leftFound rightFound, matchedPairs_eq]
    apply congrArg Except.ok
    apply nestedLoop_congr
    intro leftRow rightRow
    rw [joins, all_same_eq onLeft onRight, Option.all_some, cell_eq leftCount leftFound, cell_eq rightCount rightFound]

theorem cell_pairedEntries {pairs : List (Nat × Nat)} (leftSound : lefts.Sound leftCount)
    (rightSound : rights.Sound rightCount) (firsts : ∀ row ∈ pairs.map Prod.fst, row < leftCount)
    (seconds : ∀ row ∈ pairs.map Prod.snd, row < rightCount) {position : Nat} {pair : Nat × Nat}
    (listed : pairs[position]? = some pair) {name : String} (known : name ∈ lefts.names ∨ name ∈ rights.names) :
    (ofEntries (pairedEntries lefts rights pairs) pairs.length).cell name position =
      joinedCell (ofEntries lefts leftCount) (ofEntries rights rightCount) pair name := by
  have first : (pairs.map Prod.fst)[position]? = some pair.1 := by rw [List.getElem?_map, listed, Option.map_some]
  have second : (pairs.map Prod.snd)[position]? = some pair.2 := by rw [List.getElem?_map, listed, Option.map_some]
  have found := lookup?_pairedEntries lefts rights pairs name
  rw [joinedCell, names_ofEntries]
  by_cases onLeft : name ∈ lefts.names
  · obtain ⟨entry, leftFound⟩ := Entries.lookup?_of_mem_names onLeft
    rw [leftFound, Option.map_some, Option.some_or] at found
    rw [if_pos onLeft, cell_eq _ found, cell_eq _ leftFound]
    exact leftSound.value_picked (Entries.mem_of_lookup? leftFound).1 firsts first
  · obtain ⟨entry, rightFound⟩ := Entries.lookup?_of_mem_names (known.resolve_left onLeft)
    rw [Entries.lookup?_eq_none onLeft, rightFound, Option.map_none, Option.none_or, Option.map_some] at found
    rw [if_neg onLeft, cell_eq _ found, cell_eq _ rightFound]
    exact rightSound.value_picked (Entries.mem_of_lookup? rightFound).1 seconds second

theorem find?_pairedEntries (pairs : List (Nat × Nat)) (name : String) :
    (ofEntries (pairedEntries lefts rights pairs) pairs.length).schema.find? name =
      joinedField? (ofEntries lefts leftCount) (ofEntries rights rightCount) name := by
  rw [joinedField?, find?_ofEntries, find?_ofEntries, find?_ofEntries, lookup?_pairedEntries]
  cases lefts.lookup? name <;> cases rights.lookup? name <;> rfl

/-- A join whose arguments are in order has a row for every pair. -/
theorem join_of_joinable (leftSound : lefts.Sound leftCount) (rightSound : rights.Sound rightCount)
    {predicate : Option JoinPredicate} {project : List String}
    (joinable : Joinable (ofEntries lefts leftCount) (ofEntries rights rightCount) on predicate project) :
    ∃ joined, (ofEntries lefts leftCount).join (ofEntries rights rightCount) on predicate project = .ok joined ∧
      joined.WellFormed ∧
      joined.schema.fields.map some =
        project.map (joinedField? (ofEntries lefts leftCount) (ofEntries rights rightCount)) ∧
      joined.rows = (nestedPairs (ofEntries lefts leftCount) (ofEntries rights rightCount) on predicate).map fun pair =>
        project.map (joinedCell (ofEntries lefts leftCount) (ofEntries rights rightCount) pair) := by
  obtain ⟨filled, distinct, known, onLeft, onRight, compared⟩ := joinable
  simp only [names_ofEntries] at known onLeft onRight compared
  let pairs := nestedPairs (ofEntries lefts leftCount) (ofEntries rights rightCount) on predicate
  have found : pairing (ofEntries lefts leftCount) (ofEntries rights rightCount) on predicate = .ok pairs :=
    pairing_eq onLeft onRight compared
  obtain ⟨firsts, seconds⟩ := pairing_inside found
  have present : ∀ name ∈ project, name ∈ (pairedEntries lefts rights pairs).names := fun name member =>
    mem_names_pairedEntries (known name member)
  have even := even_pairedEntries leftSound rightSound firsts seconds
  refine ⟨_, join_eq leftSound rightSound found present distinct filled,
    wellFormed_ofEntries (Entries.sound_select even present distinct), ?_, ?_⟩
  · rw [ofEntries, List.map_map]
    apply (fields_select pairs.length present).trans
    exact List.map_congr_left fun name _ => find?_pairedEntries pairs name
  · apply rows_ofEntries rfl
    intro position pair listed
    rw [← cells_keyAt, ← cellsAt_eq pairs.length present]
    apply List.map_congr_left
    intro name member
    exact cell_pairedEntries leftSound rightSound firsts seconds listed (known name member)

section Inversion
variable {predicate : Option JoinPredicate} {project : List String}

theorem joinOutputs_eq_ok {outputs : List JoinOutput}
    (resolved : joinOutputs (ofEntries lefts leftCount) (ofEntries rights rightCount) project = .ok outputs) :
    ∀ name ∈ project, name ∈ lefts.names ∨ name ∈ rights.names := by
  intro name member
  by_contra unknown
  obtain ⟨offLeft, offRight⟩ := not_or.mp unknown
  have missing : (joinOutput? (ofEntries lefts leftCount) (ofEntries rights rightCount) name).isNone = true := by
    rw [joinOutput?, index?_eq_none offLeft, index?_eq_none offRight]
    rfl
  rw [joinOutputs] at resolved
  split at resolved
  next complete => exact List.filter_eq_nil_iff.mp complete name member missing
  next => cases resolved

theorem pairing_eq_ok {pairs : List (Nat × Nat)}
    (found : pairing (ofEntries lefts leftCount) (ofEntries rights rightCount) on predicate = .ok pairs) :
    (∀ name ∈ on, name ∈ lefts.names) ∧ (∀ name ∈ on, name ∈ rights.names) ∧
      ∀ condition, predicate = some condition → condition.left ∈ lefts.names ∧ condition.right ∈ rights.names := by
  obtain ⟨leftKeys, leftResolved, found⟩ := bind_eq_ok found
  obtain ⟨rightKeys, rightResolved, found⟩ := bind_eq_ok found
  refine ⟨(resolveColumns_eq_ok leftResolved).1, (resolveColumns_eq_ok rightResolved).1, ?_⟩
  rintro condition rfl
  obtain ⟨leftColumn, leftFound, found⟩ := bind_eq_ok found
  obtain ⟨rightColumn, rightFound, -⟩ := bind_eq_ok found
  exact ⟨resolveColumn_eq_ok leftFound, resolveColumn_eq_ok rightFound⟩

/-- A join that succeeds has passed all checks. -/
theorem joinable_of_ok (leftSound : lefts.Sound leftCount) (rightSound : rights.Sound rightCount) {joined : Table}
    (built : (ofEntries lefts leftCount).join (ofEntries rights rightCount) on predicate project = .ok joined) :
    Joinable (ofEntries lefts leftCount) (ofEntries rights rightCount) on predicate project := by
  have whole := built
  rw [join_eq_pairing] at built
  obtain ⟨some, built⟩ := check_eq_ok built
  obtain ⟨outputs, resolved, built⟩ := bind_eq_ok built
  obtain ⟨pairs, found, -⟩ := bind_eq_ok built
  have filled : project ≠ [] := by simpa using some
  have known := joinOutputs_eq_ok resolved
  obtain ⟨onLeft, onRight, compared⟩ := pairing_eq_ok found
  obtain ⟨firsts, seconds⟩ := pairing_inside found
  have present : ∀ name ∈ project, name ∈ (pairedEntries lefts rights pairs).names := fun name member =>
    mem_names_pairedEntries (known name member)
  have even := even_pairedEntries leftSound rightSound firsts seconds
  rw [join_eq_ofColumns leftSound rightSound found present filled] at whole
  obtain ⟨count, sound, -⟩ := ofColumns_eq_ok (fun entry member => even entry (Entries.mem_of_mem_select member)) whole
  have distinct := sound.distinct
  rw [Entries.names_select present] at distinct
  constructor
  case filled => exact filled
  case distinct => exact distinct
  case known => simpa only [names_ofEntries] using known
  case onLeft => simpa only [names_ofEntries] using onLeft
  case onRight => simpa only [names_ofEntries] using onRight
  case compared => simpa only [names_ofEntries] using compared

end Inversion

end Entries

/-- Joins find what a nested loop finds, with the columns of the rows they join, and fail for
all arguments that do not say which columns these are. -/
theorem join_eq_nested_loop {left right : Table} (leftFormed : left.WellFormed) (rightFormed : right.WellFormed)
    (on : List String) (predicate : Option JoinPredicate) (project : List String) :
    (nestedPairs left right on predicate).Pairwise (Prod.Lex (· < ·) (· < ·)) ∧
    (∀ leftRow rightRow, (leftRow, rightRow) ∈ nestedPairs left right on predicate ↔
      leftRow < left.rowCount ∧ rightRow < right.rowCount ∧ joins left right on predicate leftRow rightRow = true) ∧
    (Joinable left right on predicate project → ∃ joined,
      left.join right on predicate project = .ok joined ∧ joined.WellFormed ∧
      joined.schema.fields.map some = project.map (joinedField? left right) ∧
      joined.rows = (nestedPairs left right on predicate).map fun pair => project.map (joinedCell left right pair)) ∧
    (¬Joinable left right on predicate project → ∃ error, left.join right on predicate project = .error error) := by
  obtain ⟨lefts, leftCount, rfl, leftSound⟩ := leftFormed.exists_entries
  obtain ⟨rights, rightCount, rfl, rightSound⟩ := rightFormed.exists_entries
  refine ⟨pairwise_nestedLoop, fun _ _ => mem_nestedLoop, ?_, ?_⟩
  · exact join_of_joinable leftSound rightSound
  · intro refused
    cases built : (ofEntries lefts leftCount).join (ofEntries rights rightCount) on predicate project with
    | error error => exact ⟨error, rfl⟩
    | ok joined => exact absurd (joinable_of_ok leftSound rightSound built) refused

end Table

namespace Readings

/-- The limits of the stations. -/
def limits : Table :=
  .ofEntries [
    (.nullable "station" .string, .string ⟨#["b", "", "a"], ⟨#[0b010], 3⟩⟩),
    (.required "limit" .float64, .float64 ⟨#[.zero, .zero, ⟨0x3FF0000000000000⟩], ⟨#[0], 3⟩⟩)] 3

theorem limits_formed : limits.WellFormed := by
  apply Table.wellFormed_ofEntries
  exact ⟨by decide, by decide⟩

/-- The unknown station is joined with the unknown one, but a NULL level is within no limit. -/
theorem levels_within_limits : ∃ joined,
    table.join limits ["station"] (some ⟨.lessEq, "level", "limit"⟩) ["limit", "station"] = .ok joined ∧
      joined.rows = [(0, 2), (1, 1), (3, 1)].map fun pair =>
        ["limit", "station"].map (table.joinedCell limits pair) := by
  have joinable : table.Joinable limits ["station"] (some ⟨.lessEq, "level", "limit"⟩) ["limit", "station"] := by
    constructor
    case compared =>
      rintro condition ⟨⟩
      decide
    all_goals decide
  have pairs : table.nestedPairs limits ["station"] (some ⟨.lessEq, "level", "limit"⟩) = [(0, 2), (1, 1), (3, 1)] := by
    decide +kernel
  obtain ⟨-, -, succeeds, -⟩ := Table.join_eq_nested_loop formed limits_formed ["station"]
    (some ⟨.lessEq, "level", "limit"⟩) ["limit", "station"]
  obtain ⟨joined, ran, -, -, rows⟩ := succeeds joinable
  rw [pairs] at rows
  exact ⟨joined, ran, rows⟩

end Readings

end StratifiedSampling
