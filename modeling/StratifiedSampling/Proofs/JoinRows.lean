import StratifiedSampling.Proofs.ColumnStorage
import StratifiedSampling.Proofs.RowGroups
import StratifiedSampling.Proofs.TableEntries
import StratifiedSampling.Relation.Join

/-! Joins row by row. The pairs of a join are those that comparing every left row with
every right row finds, and a joined column has the rows of its side. -/

namespace StratifiedSampling.Table

section Loop
variable {property : Nat → Nat → Bool} {leftCount rightCount : Nat}

/-- The pairs of positions with a property, found by trying every right one with every left one. -/
def nestedLoop (property : Nat → Nat → Bool) (leftCount rightCount : Nat) : List (Nat × Nat) :=
  (List.range leftCount).flatMap fun leftRow =>
    ((List.range rightCount).filter (property leftRow)).map fun rightRow => (leftRow, rightRow)

theorem mem_nestedLoop {leftRow rightRow : Nat} : (leftRow, rightRow) ∈ nestedLoop property leftCount rightCount ↔
    leftRow < leftCount ∧ rightRow < rightCount ∧ property leftRow rightRow = true := by
  simp [nestedLoop]

theorem map_fst_nestedLoop : (nestedLoop property leftCount rightCount).map Prod.fst =
    (List.range leftCount).flatMap fun leftRow =>
      List.replicate ((List.range rightCount).countP (property leftRow)) leftRow := by
  rw [nestedLoop, List.map_flatMap]
  simp [Function.comp_def, List.map_const', List.countP_eq_length_filter]

end Loop

/-- Whether a right row matches a left row. -/
def matched (leftKey rightKey : JoinKey) (filter : Nat → Nat → Bool) (leftRow rightRow : Nat) : Bool :=
  (leftKey.at? leftRow).any fun key => (rightKey.at? rightRow).any (· == key) && filter leftRow rightRow

theorem joinPairs_eq (leftKey rightKey : JoinKey) (filter : Nat → Nat → Bool) (leftCount rightCount : Nat) :
    joinPairs leftKey rightKey filter leftCount rightCount =
      nestedLoop (matched leftKey rightKey filter) leftCount rightCount := by
  unfold joinPairs nestedLoop matched
  dsimp only
  congr 1
  funext leftRow
  cases leftKey.at? leftRow with
  | none => simp
  | some key =>
    dsimp only
    rw [KeyTable.rows_build, List.filter_filter]
    simp only [Option.any_some, Bool.and_comm]

theorem joinPairs_inside {leftKey rightKey : JoinKey} {filter : Nat → Nat → Bool} {leftCount rightCount : Nat} :
    ∀ pair ∈ joinPairs leftKey rightKey filter leftCount rightCount, pair.1 < leftCount ∧ pair.2 < rightCount := by
  rintro ⟨leftRow, rightRow⟩ member
  rw [joinPairs_eq, mem_nestedLoop] at member
  exact ⟨member.1, member.2.1⟩

theorem countP_positions {items : List α} {property : Nat → Bool} {holds : α → Bool}
    (each : ∀ index item, items[index]? = some item → property index = holds item) :
    (List.range items.length).countP property = items.countP holds := by
  have listed : (List.range items.length).map (items[·]?) = items.map some := by
    refine List.ext_getElem (by simp) fun index first second => ?_
    simp
  have counted := congrArg (List.countP fun found : Option α => found.any holds) listed
  rw [List.countP_map, List.countP_map] at counted
  refine Eq.trans (List.countP_congr fun index member => ?_) counted
  have inside := List.mem_range.mp member
  rw [Function.comp_apply, List.getElem?_eq_getElem inside, Option.any_some,
    each index _ (List.getElem?_eq_getElem inside)]

theorem countP_matched {leftKey rightKey : JoinKey} {filter : Nat → Nat → Bool} {leftRow : Nat} {key : Key}
    (keyed : leftKey.at? leftRow = some key) {items : List α} {holds : α → Bool}
    (each : ∀ index item, items[index]? = some item →
      ((rightKey.at? index).any (· == key) && filter leftRow index) = holds item) :
    (List.range items.length).countP (matched leftKey rightKey filter leftRow) = items.countP holds := by
  apply countP_positions
  intro index item listed
  rw [matched, keyed, Option.any_some, each index item listed]

def matchedPairs (comparison : Comparison) (left right : List Column × Column) (leftCount rightCount : Nat) :
    List (Nat × Nat) :=
  match comparison with
  | .equal => joinPairs ⟨left.1, some left.2⟩ ⟨right.1, some right.2⟩ (fun _ _ => true) leftCount rightCount
  | .lessEq => joinPairs ⟨left.1, none⟩ ⟨right.1, none⟩ (inOrder (left.2, right.2)) leftCount rightCount

theorem matchedPairs_inside {comparison : Comparison} {left right : List Column × Column} {leftCount rightCount : Nat} :
    ∀ pair ∈ matchedPairs comparison left right leftCount rightCount, pair.1 < leftCount ∧ pair.2 < rightCount := by
  intro pair member
  cases comparison <;>
  · rw [matchedPairs] at member
    exact joinPairs_inside pair member

/-- The pairs of rows that a join finds. -/
def pairing (left right : Table) (on : List String) (predicate : Option JoinPredicate) :
    Except Error (List (Nat × Nat)) := do
  let leftKeys ← left.resolveColumns on
  let rightKeys ← right.resolveColumns on
  match predicate with
  | none => return joinPairs ⟨leftKeys, none⟩ ⟨rightKeys, none⟩ (fun _ _ => true) left.rowCount right.rowCount
  | some condition =>
    let leftColumn ← left.resolveColumn condition.left
    let rightColumn ← right.resolveColumn condition.right
    return matchedPairs condition.comparison (leftKeys, leftColumn) (rightKeys, rightColumn)
      left.rowCount right.rowCount

theorem pairing_inside {left right : Table} {on : List String} {predicate : Option JoinPredicate}
    {pairs : List (Nat × Nat)} (found : pairing left right on predicate = .ok pairs) :
    (∀ row ∈ pairs.map Prod.fst, row < left.rowCount) ∧ ∀ row ∈ pairs.map Prod.snd, row < right.rowCount := by
  have inside : ∀ pair ∈ pairs, pair.1 < left.rowCount ∧ pair.2 < right.rowCount := by
    obtain ⟨leftKeys, -, found⟩ := bind_eq_ok found
    obtain ⟨rightKeys, -, found⟩ := bind_eq_ok found
    cases predicate with
    | none =>
      cases found
      exact joinPairs_inside
    | some condition =>
      obtain ⟨leftColumn, -, found⟩ := bind_eq_ok found
      obtain ⟨rightColumn, -, found⟩ := bind_eq_ok found
      cases found
      exact matchedPairs_inside
  constructor
  · intro row member
    obtain ⟨pair, listed, rfl⟩ := List.mem_map.mp member
    exact (inside pair listed).1
  · intro row member
    obtain ⟨pair, listed, rfl⟩ := List.mem_map.mp member
    exact (inside pair listed).2

/-- Every predicate leads to a list of pairs, and all of them to the same last steps. -/
theorem join_eq_pairing (left right : Table) (on : List String) (predicate : Option JoinPredicate)
    (project : List String) : left.join right on predicate project = (do
      if project.isEmpty then
        throw (.invalidArgument "join must project at least one column")
      let outputs ← joinOutputs left right project
      let pairs ← pairing left right on predicate
      let columns ← outputs.mapM (joinColumn left right pairs)
      ofColumns ⟨columns.filterMap Prod.fst⟩ (columns.map Prod.snd)) := by
  unfold join pairing
  cases predicate with
  | none => simp only [bind_assoc, pure_bind]
  | some condition =>
    obtain ⟨comparison, leftName, rightName⟩ := condition
    cases comparison <;> simp only [bind_assoc, pure_bind, matchedPairs]

section Joins
variable {lefts rights : Entries} {leftCount rightCount : Nat} {pairs : List (Nat × Nat)}

/-- The columns of both sides at the rows of some pairs. -/
def pairedEntries (lefts rights : Entries) (pairs : List (Nat × Nat)) : Entries :=
  lefts.picked (pairs.map Prod.fst) ++ rights.picked (pairs.map Prod.snd)

/-- A left column stands for its name, whatever the right side has. -/
theorem lookup?_pairedEntries (lefts rights : Entries) (pairs : List (Nat × Nat)) (name : String) :
    (pairedEntries lefts rights pairs).lookup? name =
      ((lefts.lookup? name).map fun entry => (entry.1, entry.2.picked (pairs.map Prod.fst))).or
        ((rights.lookup? name).map fun entry => (entry.1, entry.2.picked (pairs.map Prod.snd))) := by
  rw [pairedEntries, Entries.lookup?_append, Entries.lookup?_picked, Entries.lookup?_picked]

theorem mem_names_pairedEntries {name : String} (known : name ∈ lefts.names ∨ name ∈ rights.names) :
    name ∈ (pairedEntries lefts rights pairs).names := by
  rw [pairedEntries, Entries.names, List.map_append, ← Entries.names, ← Entries.names, Entries.names_picked,
    Entries.names_picked]
  exact List.mem_append.mpr known

/-- The entry that a join output is taken from. -/
def outputSource? (lefts rights : Entries) (pairs : List (Nat × Nat)) : JoinOutput → Option (Field × Column)
  | .left index => (lefts[index]?).map fun entry => (entry.1, entry.2.picked (pairs.map Prod.fst))
  | .right index => (rights[index]?).map fun entry => (entry.1, entry.2.picked (pairs.map Prod.snd))

theorem joinOutput?_eq (leftCount rightCount : Nat) {name : String} {entry : Field × Column}
    (found : (pairedEntries lefts rights pairs).lookup? name = some entry) :
    ∃ output, joinOutput? (ofEntries lefts leftCount) (ofEntries rights rightCount) name = some output ∧
      outputSource? lefts rights pairs output = some entry := by
  rw [lookup?_pairedEntries] at found
  cases leftFound : lefts.lookup? name with
  | some leftEntry =>
    obtain ⟨index, position, listed⟩ := index?_of_lookup? leftCount leftFound
    rw [leftFound] at found
    exact ⟨.left index, by rw [joinOutput?, position], by rw [outputSource?, listed]; exact found⟩
  | none =>
    rw [leftFound, Option.map_none, Option.none_or, Option.map_eq_some_iff] at found
    obtain ⟨rightEntry, rightFound, same⟩ := found
    obtain ⟨index, position, listed⟩ := index?_of_lookup? rightCount rightFound
    have absent : (ofEntries lefts leftCount).schema.index? name = none := by
      apply index?_eq_none
      intro listed
      obtain ⟨entry, present⟩ := Entries.lookup?_of_mem_names listed
      cases leftFound.symm.trans present
    refine ⟨.right index, ?_, ?_⟩
    · rw [joinOutput?, absent]
      exact congrArg (Option.map _) position
    · rw [outputSource?, listed]
      exact congrArg some same

theorem joinOutputs_eq (leftCount rightCount : Nat) (pairs : List (Nat × Nat)) {names : List String}
    (known : ∀ name ∈ names, name ∈ (pairedEntries lefts rights pairs).names) :
    ∃ outputs, joinOutputs (ofEntries lefts leftCount) (ofEntries rights rightCount) names = .ok outputs ∧
      outputs.map (outputSource? lefts rights pairs) = ((pairedEntries lefts rights pairs).select names).map some := by
  have found : ∀ name ∈ names, ∃ entry output, (pairedEntries lefts rights pairs).lookup? name = some entry ∧
      joinOutput? (ofEntries lefts leftCount) (ofEntries rights rightCount) name = some output ∧
      outputSource? lefts rights pairs output = some entry := by
    intro name member
    obtain ⟨entry, entryFound⟩ := Entries.lookup?_of_mem_names (known name member)
    obtain ⟨output, named, taken⟩ := joinOutput?_eq leftCount rightCount entryFound
    exact ⟨entry, output, entryFound, named, taken⟩
  have complete : names.filter (fun name =>
      (joinOutput? (ofEntries lefts leftCount) (ofEntries rights rightCount) name).isNone) = [] := by
    apply List.filter_eq_nil_iff.mpr
    intro name member
    obtain ⟨entry, output, -, named, -⟩ := found name member
    simp [named]
  refine ⟨names.filterMap (joinOutput? (ofEntries lefts leftCount) (ofEntries rights rightCount)),
    by rw [joinOutputs, complete], ?_⟩
  clear complete known
  induction names with
  | nil => rfl
  | cons name rest ih =>
    obtain ⟨entry, output, entryFound, named, taken⟩ := found name List.mem_cons_self
    have others := ih fun other member => found other (List.mem_cons_of_mem _ member)
    unfold Entries.select at others ⊢
    rw [List.filterMap_cons_some named, List.filterMap_cons_some entryFound, List.map_cons, List.map_cons, others,
      taken]

theorem joinColumn_eq (leftSound : lefts.Sound leftCount) (rightSound : rights.Sound rightCount)
    (firsts : ∀ row ∈ pairs.map Prod.fst, row < leftCount) (seconds : ∀ row ∈ pairs.map Prod.snd, row < rightCount)
    {output : JoinOutput} {entry : Field × Column} (taken : outputSource? lefts rights pairs output = some entry) :
    joinColumn (ofEntries lefts leftCount) (ofEntries rights rightCount) pairs output =
      .ok (some entry.1, entry.2) := by
  have side : ∀ (entries : Entries) (rowCount : Nat) (rows : List Nat) (index : Nat), entries.Sound rowCount →
      (∀ row ∈ rows, row < rowCount) →
      (entries[index]?).map (fun entry => (entry.1, entry.2.picked rows)) = some entry →
      (do
        let column ← (ofEntries entries rowCount).columnAt index
        return ((ofEntries entries rowCount).schema.fields[index]?, ← column.gather rows)) =
        Except.ok (some entry.1, entry.2) := by
    intro entries rowCount rows index sound bounded found
    obtain ⟨source, listed, rfl⟩ := Option.map_eq_some_iff.mp found
    have gathered : source.2.gather rows = .ok (source.2.picked rows) :=
      Column.gather_eq (sound.inside (List.mem_of_getElem? listed) bounded)
    simp only [columnAt, columnAt_of_getElem? listed, bind, Except.bind, gathered, pure, Except.pure]
    simp [ofEntries, listed]
  cases output with
  | left index => exact side lefts leftCount (pairs.map Prod.fst) index leftSound firsts taken
  | right index => exact side rights rightCount (pairs.map Prod.snd) index rightSound seconds taken

theorem even_pairedEntries (leftSound : lefts.Sound leftCount) (rightSound : rights.Sound rightCount)
    (firsts : ∀ row ∈ pairs.map Prod.fst, row < leftCount) (seconds : ∀ row ∈ pairs.map Prod.snd, row < rightCount) :
    ∀ entry ∈ pairedEntries lefts rights pairs, entry.2.size = pairs.length := by
  intro entry member
  rcases List.mem_append.mp member with member | member
  · rw [(leftSound.picked firsts).even entry member, List.length_map]
  · rw [(rightSound.picked seconds).even entry member, List.length_map]

theorem pairing_none {on : List String} (onLeft : ∀ name ∈ on, name ∈ lefts.names)
    (onRight : ∀ name ∈ on, name ∈ rights.names) :
    pairing (ofEntries lefts leftCount) (ofEntries rights rightCount) on none =
      .ok (joinPairs ⟨(lefts.select on).columns, none⟩ ⟨(rights.select on).columns, none⟩ (fun _ _ => true)
        leftCount rightCount) := by
  rw [pairing, resolveColumns_eq onLeft, resolveColumns_eq onRight]
  rfl

theorem pairing_some {on : List String} (onLeft : ∀ name ∈ on, name ∈ lefts.names)
    (onRight : ∀ name ∈ on, name ∈ rights.names) {condition : JoinPredicate} {leftEntry rightEntry : Field × Column}
    (leftFound : lefts.lookup? condition.left = some leftEntry)
    (rightFound : rights.lookup? condition.right = some rightEntry) :
    pairing (ofEntries lefts leftCount) (ofEntries rights rightCount) on (some condition) =
      .ok (matchedPairs condition.comparison ((lefts.select on).columns, leftEntry.2)
        ((rights.select on).columns, rightEntry.2) leftCount rightCount) := by
  rw [pairing, resolveColumns_eq onLeft, resolveColumns_eq onRight]
  simp only [bind, Except.bind, resolveColumn_eq leftFound, resolveColumn_eq rightFound]
  rfl

theorem select_pairedEntries {names : List String} (known : ∀ name ∈ names, name ∈ lefts.names) :
    (pairedEntries lefts rights pairs).select names = (lefts.select names).picked (pairs.map Prod.fst) := by
  have picked : ∀ name ∈ names, name ∈ (lefts.picked (pairs.map Prod.fst)).names := by
    rw [Entries.names_picked]
    exact known
  rw [pairedEntries, Entries.select_append_of_mem picked, Entries.select_picked]

section Joined
variable {on project : List String} {predicate : Option JoinPredicate}

theorem join_eq_ofColumns (leftSound : lefts.Sound leftCount) (rightSound : rights.Sound rightCount)
    (found : pairing (ofEntries lefts leftCount) (ofEntries rights rightCount) on predicate = .ok pairs)
    (known : ∀ name ∈ project, name ∈ (pairedEntries lefts rights pairs).names) (filled : project ≠ []) :
    (ofEntries lefts leftCount).join (ofEntries rights rightCount) on predicate project =
      ofColumns ⟨((pairedEntries lefts rights pairs).select project).map Prod.fst⟩
        ((pairedEntries lefts rights pairs).select project).columns := by
  obtain ⟨firsts, seconds⟩ := pairing_inside found
  obtain ⟨outputs, resolved, listed⟩ := joinOutputs_eq leftCount rightCount pairs known
  have taken := mapM_of_map_some (fun output entry => joinColumn_eq leftSound rightSound firsts seconds) listed
  rw [join_eq_pairing, if_neg (by simpa using filled)]
  simp only [resolved, found, taken, bind, Except.bind, List.filterMap_map, List.map_map, Function.comp_def]
  simp [Entries.columns]

/-- A join that finds some pairs has the columns of both sides at their rows. -/
theorem join_eq (leftSound : lefts.Sound leftCount) (rightSound : rights.Sound rightCount)
    (found : pairing (ofEntries lefts leftCount) (ofEntries rights rightCount) on predicate = .ok pairs)
    (known : ∀ name ∈ project, name ∈ (pairedEntries lefts rights pairs).names) (distinct : project.Nodup)
    (filled : project ≠ []) :
    (ofEntries lefts leftCount).join (ofEntries rights rightCount) on predicate project =
      .ok (ofEntries ((pairedEntries lefts rights pairs).select project) pairs.length) := by
  obtain ⟨firsts, seconds⟩ := pairing_inside found
  have sound := Entries.sound_select (even_pairedEntries leftSound rightSound firsts seconds) known distinct
  have some : (pairedEntries lefts rights pairs).select project ≠ [] := by
    intro none
    have names := Entries.names_select known
    rw [none] at names
    exact filled names.symm
  rw [join_eq_ofColumns leftSound rightSound found known filled, ofColumns_filled sound some]

end Joined

end Joins

end StratifiedSampling.Table
