import StratifiedSampling.Proofs.RowPushes

/-! Rows that are added together. A batch is taken exactly if each of its rows is taken when they
are pushed one after the other, and then it leaves the same table. Columns are written one by one,
which decides only the fault that a refused batch is refused for. -/

namespace StratifiedSampling

namespace Column

variable {column pushed : Column}

theorem dataType_push {value : Value} (added : column.push value = .ok pushed) : pushed.dataType = column.dataType := by
  unfold push at added
  split at added <;> cases added
  next => cases column <;> rfl
  all_goals rfl

theorem pushAll_cons (column : Column) (value : Value) (values : List Value) :
    column.pushAll (value :: values) = column.push value >>= fun pushed => pushed.pushAll values :=
  List.foldlM_cons

/-- A column that takes all of some values coerces each of them. -/
theorem coerce_of_pushAll {values : List Value} (added : column.pushAll values = .ok pushed) :
    ∀ value ∈ values, ∃ stored, column.dataType.coerce value = some stored := by
  induction values generalizing column with
  | nil => simp
  | cons first rest ih =>
    rw [pushAll_cons] at added
    obtain ⟨next, taken, added⟩ := bind_eq_ok added
    have others := ih added
    rw [dataType_push taken] at others
    intro value member
    rcases List.mem_cons.mp member with rfl | member
    · rcases column.push_cases value with ⟨stored, -, coerced, -⟩ | ⟨-, refused⟩
      · exact ⟨stored, coerced⟩
      · cases taken.symm.trans refused
    · exact others value member

/-- A column that does not take all of some values has met one that its type does not coerce. -/
theorem pushAll_eq_error {values : List Value} {error : Error} (refused : column.pushAll values = .error error) :
    ∃ value ∈ values, column.dataType.coerce value = none ∧
      error = .typeMismatch column.dataType.name value.dataType.name := by
  induction values generalizing column with
  | nil => cases refused
  | cons first rest ih =>
    rw [pushAll_cons] at refused
    rcases column.push_cases first with ⟨-, next, -, taken⟩ | ⟨uncoerced, failed⟩
    · rw [taken] at refused
      obtain ⟨value, member, uncoerced, same⟩ := ih refused
      rw [dataType_push taken] at uncoerced same
      exact ⟨value, List.mem_cons_of_mem _ member, uncoerced, same⟩
    · rw [failed] at refused
      cases refused
      exact ⟨first, List.mem_cons_self, uncoerced, rfl⟩

end Column

namespace Table

section Ragged
variable {width start : Nat} {rows : List Row}

/-- The row that is reported is the first of the wrong length. -/
theorem firstRagged_eq_some {position size : Nat} (found : firstRagged width start rows = some (position, size)) :
    ∃ before row after, rows = before ++ row :: after ∧ position = start + before.length ∧ size = row.length ∧
      row.length ≠ width ∧ ∀ earlier ∈ before, earlier.length = width := by
  induction rows generalizing start with
  | nil => cases found
  | cons first rest ih =>
    rw [firstRagged] at found
    split at found
    next same =>
      obtain ⟨before, row, after, rfl, rfl, sized, ragged, even⟩ := ih found
      refine ⟨first :: before, row, after, rfl, by rw [List.length_cons]; omega, sized, ragged, ?_⟩
      simpa using ⟨beq_iff_eq.mp same, even⟩
    next other =>
      cases found
      exact ⟨[], first, rest, rfl, rfl, rfl, by simpa using other, by simp⟩

end Ragged

section Columns
variable {columns grown : List (String × Column)} {row : Row} {rows : List Row}

theorem pushColumns_nil (columns : List (String × Column)) : pushColumns columns [] = .ok columns := by
  induction columns with
  | nil => rfl
  | cons entry columns ih =>
    change (do let rest ← pushColumns columns []; return entry :: rest) = _
    rw [ih]
    rfl

/-- Columns take a batch if they take its first row and then the others. -/
theorem pushColumns_cons_eq_ok (even : row.length = columns.length) :
    pushColumns columns (row :: rows) = .ok grown ↔
      ∃ middle, pushCells columns row = (middle, .ok ()) ∧ pushColumns middle rows = .ok grown := by
  induction columns generalizing row rows grown with
  | nil =>
    rw [List.eq_nil_of_length_eq_zero even]
    refine ⟨fun made => ⟨[], rfl, made⟩, ?_⟩
    rintro ⟨_, ⟨⟩, made⟩
    exact made
  | cons entry columns ih =>
    obtain ⟨name, column⟩ := entry
    obtain ⟨value, values, rfl⟩ := List.exists_cons_of_length_eq_add_one even
    have others : ∀ rest, pushColumns columns (values :: rows.map List.tail) = .ok rest ↔
        ∃ middle, pushCells columns values = (middle, .ok ()) ∧ pushColumns middle (rows.map List.tail) = .ok rest :=
      fun _ => ih (Nat.succ.inj even)
    have whole : pushColumns ((name, column) :: columns) ((value :: values) :: rows) =
        column.push value >>= fun pushed => pushed.pushAll (rows.filterMap List.head?) >>= fun last =>
          pushColumns columns (values :: rows.map List.tail) >>= fun rest => .ok ((name, last) :: rest) := by
      rw [← bind_assoc, ← Column.pushAll_cons]
      rfl
    rw [whole, pushCells]
    cases taken : column.push value with
    | error error =>
      constructor
      · rintro ⟨⟩
      · rintro ⟨_, ⟨⟩, -⟩
    | ok pushed =>
      constructor
      · intro made
        change pushed.pushAll (rows.filterMap List.head?) >>= _ = _ at made
        obtain ⟨last, first, made⟩ := bind_eq_ok made
        obtain ⟨rest, continued, made⟩ := bind_eq_ok made
        cases made
        obtain ⟨middle, cells, continued⟩ := (others rest).mp continued
        refine ⟨(name, pushed) :: middle, by rw [cells], ?_⟩
        rw [pushColumns, first, continued]
        rfl
      · rintro ⟨_, cells, made⟩
        obtain ⟨rfl, done⟩ := Prod.mk.inj cells
        obtain ⟨last, first, made⟩ := bind_eq_ok made
        obtain ⟨rest, continued, made⟩ := bind_eq_ok made
        cases made
        have continued := (others rest).mpr ⟨_, Prod.ext rfl done, continued⟩
        change pushed.pushAll (rows.filterMap List.head?) >>= _ = _
        rw [first, continued]
        rfl

/-- A batch of even rows is refused for what one of its rows is refused for. -/
theorem pushColumns_eq_error {error : Error} (even : ∀ row ∈ rows, row.length = columns.length)
    (refused : pushColumns columns rows = .error error) :
    ∃ row ∈ rows, judgeRow (columns.map fun entry => entry.2.dataType) row = .error error := by
  induction columns generalizing rows with
  | nil => cases refused
  | cons entry columns ih =>
    obtain ⟨name, column⟩ := entry
    have split : ∀ row ∈ rows, ∃ value values, row = value :: values := fun row member =>
      List.exists_cons_of_length_eq_add_one (even row member)
    cases first : column.pushAll (rows.filterMap List.head?) with
    | error fault =>
      rw [pushColumns, first] at refused
      cases refused
      obtain ⟨value, member, uncoerced, rfl⟩ := Column.pushAll_eq_error first
      obtain ⟨row, listed, head⟩ := List.mem_filterMap.mp member
      obtain ⟨_, values, rfl⟩ := split row listed
      cases head
      exact ⟨_, listed, by rw [List.map_cons, judgeRow, uncoerced]⟩
    | ok pushed =>
      have others : pushColumns columns (rows.map List.tail) = .error error := by
        rw [pushColumns, first] at refused
        change (do let rest ← pushColumns columns (rows.map List.tail); return (name, pushed) :: rest) = _ at refused
        cases ran : pushColumns columns (rows.map List.tail) with
        | error fault =>
          rw [ran] at refused
          exact refused
        | ok rest =>
          rw [ran] at refused
          cases refused
      have tails : ∀ row ∈ rows.map List.tail, row.length = columns.length := by
        intro row member
        obtain ⟨whole, listed, rfl⟩ := List.mem_map.mp member
        simp [even whole listed]
      obtain ⟨row, member, judged⟩ := ih tails others
      obtain ⟨whole, listed, rfl⟩ := List.mem_map.mp member
      obtain ⟨value, values, rfl⟩ := split whole listed
      obtain ⟨stored, coerced⟩ := Column.coerce_of_pushAll first value (List.mem_filterMap.mpr ⟨_, listed, rfl⟩)
      exact ⟨_, listed, by rw [List.map_cons, judgeRow, coerced]; exact judged⟩

end Columns

section Batches
variable {table grown : Table} {row : Row} {rows : List Row}

theorem length_pushCells (columns : List (String × Column)) (row : Row) :
    (pushCells columns row).1.length = columns.length := by
  induction columns generalizing row with
  | nil => rfl
  | cons entry columns ih =>
    obtain ⟨name, column⟩ := entry
    cases row with
    | nil => rfl
    | cons value row =>
      rw [pushCells]
      cases column.push value with
      | error error => rfl
      | ok pushed => exact congrArg (· + 1) (ih row)

theorem pushRow_eq_ok : table.pushRow row = (grown, .ok ()) ↔
    row.length = table.width ∧ ∃ columns, pushCells table.columns row = (columns, .ok ()) ∧
      grown = { table with columns, rowCount := table.rowCount + 1 } := by
  unfold pushRow
  split
  next uneven => exact ⟨nofun, fun ⟨even, _⟩ => absurd even uneven⟩
  next even =>
    have even := not_not.mp even
    cases pushCells table.columns row with
    | mk columns outcome =>
      cases outcome with
      | error error => exact ⟨nofun, nofun⟩
      | ok done =>
        refine ⟨fun same => ⟨even, columns, rfl, (Prod.mk.inj same).1.symm⟩, ?_⟩
        rintro ⟨-, _, same, rfl⟩
        cases same
        rfl

theorem pushRows_eq_ok : table.pushRows rows = .ok grown ↔
    (∀ row ∈ rows, row.length = table.width) ∧ ∃ columns, pushColumns table.columns rows = .ok columns ∧
      grown = { table with columns, rowCount := table.rowCount + rows.length } := by
  unfold pushRows
  split
  next position size found =>
    obtain ⟨before, row, after, rfl, -, -, ragged, -⟩ := firstRagged_eq_some found
    exact ⟨nofun, fun ⟨even, _⟩ => absurd (even row (by simp)) ragged⟩
  next even =>
    cases pushColumns table.columns rows with
    | error error => exact ⟨nofun, nofun⟩
    | ok columns =>
      refine ⟨fun same => ⟨firstRagged_eq_none even, columns, rfl, (Except.ok.inj same).symm⟩, ?_⟩
      rintro ⟨-, _, same, rfl⟩
      cases same
      rfl

theorem pushRows_cons_eq_ok : table.pushRows (row :: rows) = .ok grown ↔
    ∃ middle, table.pushRow row = (middle, .ok ()) ∧ middle.pushRows rows = .ok grown := by
  have width : ∀ {columns : List (String × Column)}, pushCells table.columns row = (columns, .ok ()) →
      columns.length = table.width := by
    intro columns cells
    rw [width, ← length_pushCells table.columns row, cells]
  constructor
  · intro taken
    obtain ⟨even, columns, made, rfl⟩ := pushRows_eq_ok.mp taken
    obtain ⟨here, others⟩ := List.forall_mem_cons.mp even
    obtain ⟨middle, cells, made⟩ := (pushColumns_cons_eq_ok here).mp made
    refine ⟨_, pushRow_eq_ok.mpr ⟨here, middle, cells, rfl⟩, pushRows_eq_ok.mpr ⟨?_, columns, made, ?_⟩⟩
    · intro other member
      exact (others other member).trans (width cells).symm
    · rw [List.length_cons, Nat.add_comm rows.length, Nat.add_assoc]
  · rintro ⟨middle, first, taken⟩
    obtain ⟨here, columns, cells, rfl⟩ := pushRow_eq_ok.mp first
    obtain ⟨others, last, made, rfl⟩ := pushRows_eq_ok.mp taken
    refine pushRows_eq_ok.mpr ⟨List.forall_mem_cons.mpr ⟨here, ?_⟩, last,
      (pushColumns_cons_eq_ok here).mpr ⟨columns, cells, made⟩, ?_⟩
    · intro other member
      exact (others other member).trans (width cells)
    · rw [List.length_cons, Nat.add_comm rows.length, ← Nat.add_assoc]

/-- A batch is taken if every one of its rows is taken in its turn, and then leaves the same table. -/
theorem pushRows_eq_pushEach : table.pushRows rows = .ok grown ↔
    (∀ outcome ∈ (table.pushEach rows).2, outcome = .ok ()) ∧ (table.pushEach rows).1 = grown := by
  induction rows generalizing table with
  | nil =>
    rw [pushRows_eq_ok, pushColumns_nil]
    simp [pushEach, eq_comm]
  | cons row rows ih =>
    rw [pushRows_cons_eq_ok]
    change _ ↔ (∀ outcome ∈ (table.pushRow row).2 :: ((table.pushRow row).1.pushEach rows).2, outcome = .ok ()) ∧
      ((table.pushRow row).1.pushEach rows).1 = grown
    rw [List.forall_mem_cons, and_assoc, ← ih]
    constructor
    · rintro ⟨middle, first, taken⟩
      rw [first]
      exact ⟨rfl, taken⟩
    · rintro ⟨first, taken⟩
      exact ⟨_, Prod.ext rfl first, taken⟩

/-- What a batch may be refused for: its first row of the wrong length or, if all are of the
right length, what one of its rows is refused for. -/
inductive Fault (table : Table) (rows : List Row) : Error → Prop where
  | ragged {before after : List Row} {row : Row} (split : rows = before ++ row :: after)
      (even : ∀ earlier ∈ before, earlier.length = table.width) (uneven : row.length ≠ table.width) :
      Fault table rows (.schemaMismatch
        s!"row {before.length} has {row.length} values but table has {table.width} columns")
  | refused {row : Row} {error : Error} (even : ∀ row ∈ rows, row.length = table.width) (member : row ∈ rows)
      (judged : table.verdict row = .error error) : Fault table rows error

theorem fault_of_pushRows {error : Error} (refused : table.pushRows rows = .error error) : Fault table rows error := by
  unfold pushRows at refused
  split at refused
  next position size found =>
    cases refused
    obtain ⟨before, row, after, split, rfl, rfl, uneven, even⟩ := firstRagged_eq_some found
    rw [Nat.zero_add]
    exact .ragged split even uneven
  next found =>
    have even := firstRagged_eq_none found
    cases ran : pushColumns table.columns rows with
    | ok columns =>
      rw [ran] at refused
      cases refused
    | error fault =>
      rw [ran] at refused
      cases refused
      obtain ⟨row, member, judged⟩ := pushColumns_eq_error even ran
      exact .refused even member (by rw [verdict, if_neg (not_not.mpr (even row member))]; exact judged)

theorem run_extend (table : Table) (rows : List Row) : (extend rows).run.run table =
    match table.pushRows rows with
    | .ok grown => (.ok (), grown)
    | .error error => (.error error, table) := by
  have looked : (get : Change Table).run.run table = pure (.ok table, table) := rfl
  unfold extend pushRows
  rw [ExceptT.run_bind, StateT.run_bind, looked, pure_bind]
  dsimp only
  cases firstRagged table.width 0 rows with
  | some place => rfl
  | none => cases pushColumns table.columns rows <;> rfl

end Batches

end Table

/-- A batch of rows is taken if and only if each of its rows is taken in its turn, and both ways
leave the same table. A batch that is refused leaves the table as it was, and is refused for a
row of the wrong length or for what one of its rows is refused for. -/
theorem pushRows_all_or_nothing (table : Table) (rows : List Row) :
    ((∃ grown, table.pushRows rows = .ok grown) ↔ ∀ outcome ∈ (table.pushEach rows).2, outcome = .ok ()) ∧
    (∀ grown, table.pushRows rows = .ok grown →
      (table.pushEach rows).1 = grown ∧ (Table.extend rows).run.run table = (.ok (), grown)) ∧
    ∀ error, table.pushRows rows = .error error →
      (Table.extend rows).run.run table = (.error error, table) ∧ Table.Fault table rows error := by
  refine ⟨⟨?_, ?_⟩, fun grown taken => ?_, fun error refused => ?_⟩
  · rintro ⟨grown, taken⟩
    exact (Table.pushRows_eq_pushEach.mp taken).1
  · exact fun taken => ⟨_, Table.pushRows_eq_pushEach.mpr ⟨taken, rfl⟩⟩
  · exact ⟨(Table.pushRows_eq_pushEach.mp taken).2, by rw [Table.run_extend, taken]⟩
  · exact ⟨by rw [Table.run_extend, refused], Table.fault_of_pushRows refused⟩

end StratifiedSampling
