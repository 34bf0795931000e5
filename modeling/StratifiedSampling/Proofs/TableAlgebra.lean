import StratifiedSampling.Proofs.PackedBits
import StratifiedSampling.Proofs.RowPushes
import StratifiedSampling.Proofs.TableCells

/-! Rows that are picked, tables that are joined end to end and columns that are chosen. Picking
goes with joining and with picking again as it does for lists, columns may be chosen before or
after rows, and tables are joined in any grouping. Whole tables are equal, bitmaps included: picking
builds bitmaps anew, so that all rows in order are the table only if its bitmaps were built so. -/

namespace StratifiedSampling

namespace Table

/-- All positions are those of rows. -/
def Has (table : Table) (indices : List Nat) : Prop :=
  ∀ index ∈ indices, index < table.rowCount

instance (table : Table) (indices : List Nat) : Decidable (table.Has indices) :=
  inferInstanceAs (Decidable (∀ index ∈ indices, index < table.rowCount))

/-- The rows at some positions, in that order. -/
def picked (table : Table) (indices : List Nat) : Table :=
  { table with
    columns := table.columns.map fun entry => (entry.1, entry.2.picked indices)
    rowCount := indices.length }

/-- The positions that some of the picked rows were picked from. -/
def origins (indices positions : List Nat) : List Nat :=
  positions.filterMap fun position => indices[position]?

section Picking
variable {table : Table} {indices more positions : List Nat}

theorem Has.origins (has : table.Has indices) (positions : List Nat) : table.Has (origins indices positions) := by
  intro index member
  obtain ⟨position, -, listed⟩ := List.mem_filterMap.mp member
  exact has index (List.mem_of_getElem? listed)

theorem length_origins (within : ∀ position ∈ positions, position < indices.length) :
    (origins indices positions).length = positions.length := by
  apply List.filterMap_length_eq_length.mpr
  simpa using within

theorem has_range (table : Table) : table.Has (List.range table.rowCount) :=
  fun _ => List.mem_range.mp

theorem WellFormed.inside (formed : table.WellFormed) (has : table.Has indices) {entry : String × Column}
    (member : entry ∈ table.columns) : ∀ index ∈ indices, index < entry.2.size := by
  rw [formed.even entry member]
  exact has

theorem WellFormed.gather_eq_picked (formed : table.WellFormed) (has : table.Has indices) :
    table.gather indices = .ok (table.picked indices) :=
  gather_eq_map fun _ member => formed.inside has member

theorem WellFormed.gather_picked (formed : table.WellFormed) (has : table.Has indices)
    (within : (table.picked indices).Has positions) :
    (table.picked indices).gather positions = .ok (table.picked (origins indices positions)) := by
  have sizes : ∀ entry ∈ (table.picked indices).columns, ∀ position ∈ positions, position < entry.2.size := by
    intro entry member
    obtain ⟨source, listed, rfl⟩ := List.mem_map.mp member
    rw [Column.size_picked (formed.inside has listed)]
    exact within
  have columns : (table.picked indices).columns.map (fun entry => (entry.1, entry.2.picked positions)) =
      (table.picked (origins indices positions)).columns := by
    rw [picked, picked, List.map_map]
    exact List.map_congr_left fun entry member => congrArg _ (Column.picked_picked (formed.inside has member) within)
  rw [gather_eq_map sizes, columns, picked, picked, length_origins within]

/-- Rows that are picked are stored as pushing stores them, whatever they were picked from. -/
theorem WellFormed.packed_picked (formed : table.WellFormed) (has : table.Has indices) :
    ∀ entry ∈ (table.picked indices).columns, entry.2.Packed := by
  intro entry member
  obtain ⟨source, listed, rfl⟩ := List.mem_map.mp member
  exact Column.packed_picked (formed.inside has listed)

theorem Solid.picked_range (solid : table.Solid) : table.picked (List.range table.rowCount) = table := by
  have columns : table.columns.map (fun entry => (entry.1, entry.2.picked (List.range table.rowCount))) = table.columns := by
    refine (List.map_congr_left fun entry member => ?_).trans (List.map_id _)
    rw [← solid.even entry member, (solid.packed entry member).picked_range]
    rfl
  rw [picked, columns, List.length_range]

/-- All rows in order are the table, unless its bitmaps have words that it does not need. -/
theorem WellFormed.picked_range_eq (formed : table.WellFormed) :
    table.picked (List.range table.rowCount) = table ↔ table.Solid :=
  ⟨fun same => ⟨formed, same ▸ formed.packed_picked table.has_range⟩, Solid.picked_range⟩

/-- A position past the last row is found out in the first column. -/
theorem WellFormed.gather_beyond (formed : table.WellFormed) (filled : table.columns ≠ [])
    (beyond : ∃ index ∈ indices, table.rowCount ≤ index) : table.gather indices =
      .error (.internal s!"gather: index {indices.foldl max 0} out of bounds for column of length {table.rowCount}") := by
  obtain ⟨index, member, outside⟩ := beyond
  obtain ⟨entry, columns, same⟩ := List.exists_cons_of_ne_nil filled
  have size := formed.even entry (by simp [same])
  have refused : entry.2.gather indices = .error _ := Column.gather_beyond ⟨index, member, size ▸ outside⟩
  rw [size] at refused
  unfold gather
  rw [same, List.mapM_cons, refused]
  rfl

end Picking

section Joining

/-- Columns that are joined one by one. -/
theorem appendColumns_map (upper lower whole : Column → Column) {columns : List (String × Column)}
    (each : ∀ entry ∈ columns, (upper entry.2).append (lower entry.2) = .ok (whole entry.2)) :
    appendColumns (columns.map fun entry => (entry.1, upper entry.2)) (columns.map fun entry => (entry.1, lower entry.2)) =
      .ok (columns.map fun entry => (entry.1, whole entry.2)) := by
  induction columns with
  | nil => rfl
  | cons entry columns ih =>
    rw [List.map_cons, List.map_cons, appendColumns, each entry List.mem_cons_self,
      ih fun other member => each other (List.mem_cons_of_mem _ member)]
    rfl

theorem WellFormed.concat_picked {table : Table} (formed : table.WellFormed) {indices more : List Nat}
    (has : table.Has indices) (hasMore : table.Has more) :
    (table.picked indices).concat (table.picked more) = .ok (table.picked (indices ++ more)) := by
  have columns := appendColumns_map (Column.picked · indices) (Column.picked · more) (Column.picked · (indices ++ more))
    fun entry member => Column.append_picked (formed.inside has member) (formed.inside hasMore member)
  unfold concat picked
  simp only [ne_eq, not_true_eq_false, if_false]
  rw [columns, List.length_append]
  rfl

/-- Columns and others that are joined pair by pair, under the names of the first. -/
inductive Joined : List (String × Column) → List (String × Column) → List (String × Column) → Prop where
  | nil : Joined [] [] []
  | cons {name otherName : String} {column other joined : Column} {columns others rest : List (String × Column)}
      (first : column.append other = .ok joined) (after : Joined columns others rest) :
      Joined ((name, column) :: columns) ((otherName, other) :: others) ((name, joined) :: rest)

theorem appendColumns_eq_ok {columns others joined : List (String × Column)} (even : columns.length = others.length) :
    appendColumns columns others = .ok joined ↔ Joined columns others joined := by
  constructor
  · intro made
    induction columns generalizing others joined with
    | nil =>
      obtain rfl := List.eq_nil_of_length_eq_zero even.symm
      cases made
      exact .nil
    | cons entry columns ih =>
      obtain ⟨other, others, rfl⟩ := List.exists_cons_of_length_eq_add_one even.symm
      obtain ⟨column, first, made⟩ := bind_eq_ok made
      obtain ⟨rest, continued, made⟩ := bind_eq_ok made
      cases made
      exact .cons first (ih (Nat.succ.inj even) continued)
  · intro joined
    induction joined with
    | nil => rfl
    | cons first _ ih =>
      rw [appendColumns, first, ih (Nat.succ.inj even)]
      rfl

namespace Joined

variable {columns others joined more whole : List (String × Column)}

theorem names (joins : Joined columns others joined) : joined.map Prod.fst = columns.map Prod.fst := by
  induction joins with
  | nil => rfl
  | cons _ _ ih => rw [List.map_cons, List.map_cons, ih]

/-- Columns of the same types can be joined, and the result is of these types, too. -/
theorem of_types (sameTypes : columns.map (fun entry => entry.2.dataType) = others.map fun entry => entry.2.dataType) :
    ∃ joined, Joined columns others joined := by
  induction columns generalizing others with
  | nil =>
    obtain rfl := List.map_eq_nil_iff.mp sameTypes.symm
    exact ⟨[], .nil⟩
  | cons entry columns ih =>
    cases others with
    | nil => cases sameTypes
    | cons other others =>
      obtain ⟨here, later⟩ := List.cons.inj sameTypes
      obtain ⟨column, first⟩ := Column.exists_append here
      obtain ⟨joined, after⟩ := ih later
      exact ⟨_, .cons first after⟩

theorem types (joins : Joined columns others joined) :
    joined.map (fun entry => entry.2.dataType) = columns.map fun entry => entry.2.dataType := by
  induction joins with
  | nil => rfl
  | cons first _ ih => rw [List.map_cons, List.map_cons, ih, (Column.dataType_append first).2]

theorem sizes (joins : Joined columns others joined) {count more : Nat} (even : ∀ entry ∈ columns, entry.2.size = count)
    (othersEven : ∀ entry ∈ others, entry.2.size = more) : ∀ entry ∈ joined, entry.2.size = count + more := by
  induction joins with
  | nil => simp
  | cons first _ ih =>
    obtain ⟨here, even⟩ := List.forall_mem_cons.mp even
    obtain ⟨otherHere, othersEven⟩ := List.forall_mem_cons.mp othersEven
    exact List.forall_mem_cons.mpr ⟨by rw [Column.size_append first, here, otherHere], ih even othersEven⟩

/-- What joining two columns keeps is kept in all columns. -/
theorem keeps (joins : Joined columns others joined) {holds : Column → Prop}
    (kept : ∀ column other joined, holds column → holds other → column.append other = .ok joined → holds joined)
    (before : ∀ entry ∈ columns, holds entry.2) (othersBefore : ∀ entry ∈ others, holds entry.2) :
    ∀ entry ∈ joined, holds entry.2 := by
  induction joins with
  | nil => simp
  | cons first _ ih =>
    obtain ⟨here, before⟩ := List.forall_mem_cons.mp before
    obtain ⟨otherHere, othersBefore⟩ := List.forall_mem_cons.mp othersBefore
    exact List.forall_mem_cons.mpr ⟨kept _ _ _ here otherHere first, ih before othersBefore⟩

/-- Tables that are joined from the front can be joined from the back, column by column. -/
theorem from_back (upper : Joined columns others joined) (lower : Joined joined more whole)
    (clean : ∀ entry ∈ others, entry.2.nulls.Clean) :
    ∃ tail, Joined others more tail ∧ Joined columns tail whole := by
  induction upper generalizing more whole with
  | nil =>
    cases lower
    exact ⟨[], .nil, .nil⟩
  | cons first _ ih =>
    cases lower with
    | cons second lower =>
      obtain ⟨here, clean⟩ := List.forall_mem_cons.mp clean
      obtain ⟨column, back, front⟩ := Column.append_from_back here first second
      obtain ⟨tail, backs, fronts⟩ := ih lower clean
      exact ⟨_ :: tail, .cons back backs, .cons front fronts⟩

theorem from_front {tail : List (String × Column)} (lower : Joined others more tail)
    (upper : Joined columns tail whole) (clean : ∀ entry ∈ others, entry.2.nulls.Clean) :
    ∃ joined, Joined columns others joined ∧ Joined joined more whole := by
  induction lower generalizing columns whole with
  | nil =>
    cases upper
    exact ⟨[], .nil, .nil⟩
  | cons first _ ih =>
    cases upper with
    | cons second upper =>
      obtain ⟨here, clean⟩ := List.forall_mem_cons.mp clean
      obtain ⟨column, front, back⟩ := Column.append_from_front here first second
      obtain ⟨joined, fronts, backs⟩ := ih upper clean
      exact ⟨_ :: joined, .cons front fronts, .cons back backs⟩

end Joined

section Concat
variable {table middle last joined whole : Table}

theorem WellFormed.length_columns (formed : table.WellFormed) : table.columns.length = table.schema.names.length := by
  rw [← formed.named, List.length_map]

theorem WellFormed.concat_eq_ok (formed : table.WellFormed) (middleFormed : middle.WellFormed) :
    table.concat middle = .ok joined ↔ table.schema.names = middle.schema.names ∧
      ∃ columns, Joined table.columns middle.columns columns ∧
        joined = { table with columns, rowCount := table.rowCount + middle.rowCount } := by
  unfold concat
  by_cases same : table.schema.names = middle.schema.names
  · have even : table.columns.length = middle.columns.length := by
      rw [formed.length_columns, middleFormed.length_columns, same]
    simp only [same, ne_eq, not_true_eq_false, if_false, true_and]
    refine bind_eq_ok_iff.trans (exists_congr fun columns => and_congr (appendColumns_eq_ok even) ?_)
    exact ⟨fun made => (Except.ok.inj made).symm, fun made => congrArg _ made.symm⟩
  · simp only [same, ne_eq, not_false_eq_true, if_true, false_and, iff_false]
    exact nofun

theorem WellFormed.concat (formed : table.WellFormed) (middleFormed : middle.WellFormed)
    (made : table.concat middle = .ok joined) : joined.WellFormed := by
  obtain ⟨-, columns, joins, rfl⟩ := (formed.concat_eq_ok middleFormed).mp made
  exact ⟨joins.names.trans formed.named, formed.distinct, joins.sizes formed.even middleFormed.even⟩

/-- A well-formed table whose bitmaps have words for all of their bits, and no bit set past their ends. -/
structure Clean (table : Table) : Prop extends WellFormed table where
  clean : ∀ entry ∈ table.columns, entry.2.nulls.Clean

theorem Solid.clean (solid : table.Solid) : table.Clean where
  toWellFormed := solid.toWellFormed
  clean entry member := (Column.Packed.tight (solid.packed entry member)).clean

/-- Three tables are joined from the front and from the back with the same result, as long as the one
in the middle has no bits past the ends of its bitmaps. -/
theorem Clean.concat_assoc (clean : middle.Clean) (formed : table.WellFormed) (lastFormed : last.WellFormed) :
    (table.concat middle >>= fun joined => joined.concat last) = .ok whole ↔
      (middle.concat last >>= fun tail => table.concat tail) = .ok whole := by
  have middleFormed := clean.toWellFormed
  rw [bind_eq_ok_iff, bind_eq_ok_iff]
  constructor
  · rintro ⟨joined, first, second⟩
    have joinedFormed := formed.concat middleFormed first
    obtain ⟨names, columns, joins, rfl⟩ := (formed.concat_eq_ok middleFormed).mp first
    obtain ⟨lastNames, rest, others, rfl⟩ := (joinedFormed.concat_eq_ok lastFormed).mp second
    obtain ⟨tail, back, front⟩ := joins.from_back others clean.clean
    have made := (middleFormed.concat_eq_ok lastFormed).mpr ⟨names.symm.trans lastNames, tail, back, rfl⟩
    have tailFormed := middleFormed.concat lastFormed made
    exact ⟨_, made, (formed.concat_eq_ok tailFormed).mpr ⟨names, rest, front, by rw [Nat.add_assoc]⟩⟩
  · rintro ⟨tail, first, second⟩
    have tailFormed := middleFormed.concat lastFormed first
    obtain ⟨lastNames, columns, back, rfl⟩ := (middleFormed.concat_eq_ok lastFormed).mp first
    obtain ⟨names, rest, front, rfl⟩ := (formed.concat_eq_ok tailFormed).mp second
    obtain ⟨joined, joins, others⟩ := back.from_front front clean.clean
    have made := (formed.concat_eq_ok middleFormed).mpr ⟨names, joined, joins, rfl⟩
    have joinedFormed := formed.concat middleFormed made
    exact ⟨_, made, (joinedFormed.concat_eq_ok lastFormed).mpr
      ⟨names.trans lastNames, rest, others, by rw [Nat.add_assoc]⟩⟩

theorem WellFormed.exists_concat (formed : table.WellFormed) (middleFormed : middle.WellFormed)
    (names : table.schema.names = middle.schema.names) (types : table.types = middle.types) :
    ∃ joined, table.concat middle = .ok joined ∧ joined.WellFormed ∧ joined.schema = table.schema ∧
      joined.types = table.types := by
  obtain ⟨columns, joins⟩ := Joined.of_types types
  have made := (formed.concat_eq_ok middleFormed).mpr ⟨names, columns, joins, rfl⟩
  exact ⟨_, made, formed.concat middleFormed made, rfl, joins.types⟩

end Concat

end Joining

section Choosing
variable {entries : Entries} {names : List String}

/-- Unknown names are reported all at once, whatever the columns hold. -/
theorem project_eq_unknown {table : Table} (unknown : table.schema.missing names ≠ []) :
    table.project names = .error (.unknownColumns (table.schema.missing names)) := by
  unfold project Schema.resolve
  split
  next none => exact absurd none unknown
  next => rfl

theorem project_eq_repeated (rowCount : Nat) (known : ∀ name ∈ names, name ∈ entries.names) {name : String}
    (repeated : Schema.firstRepeated [] names = some name) :
    (ofEntries entries rowCount).project names = .error (.schemaMismatch ("Duplicate field name: " ++ name)) := by
  obtain ⟨indices, resolved, listed⟩ := resolve_eq rowCount known
  have fields : indices.filterMap (fun index => (ofEntries entries rowCount).schema.fields[index]?) =
      (entries.select names).map Prod.fst :=
    filterMap_of_map_some (fun index entry found => by simp [ofEntries, found]) listed
  have chosen : Schema.names ⟨(entries.select names).map Prod.fst⟩ = names := by
    rw [Schema.names, List.map_map]
    exact Entries.names_select known
  unfold project
  rw [resolved]
  simp only [bind, Except.bind]
  rw [fields]
  unfold ofColumns Schema.validate
  rw [chosen, repeated]
  rfl

/-- Columns may be chosen before or after rows, and are refused for the same reasons. -/
theorem WellFormed.project_picked {table : Table} (formed : table.WellFormed) {indices : List Nat}
    (has : table.Has indices) (names : List String) :
    (table.picked indices).project names = table.project names >>= fun projected => projected.gather indices := by
  obtain ⟨entries, rowCount, rfl, sound⟩ := formed.exists_entries
  have picked : (ofEntries entries rowCount).picked indices = ofEntries (entries.picked indices) indices.length :=
    Except.ok.inj ((formed.gather_eq_picked has).symm.trans (gather_eq sound has))
  by_cases known : ∀ name ∈ names, name ∈ entries.names
  · have knownPicked : ∀ name ∈ names, name ∈ (entries.picked indices).names := by
      rwa [Entries.names_picked]
    rw [picked]
    cases repeated : Schema.firstRepeated [] names with
    | some name =>
      rw [project_eq_repeated _ known repeated, project_eq_repeated _ knownPicked repeated]
      rfl
    | none =>
      have distinct := (Schema.nodup_of_firstRepeated repeated).1
      rw [project_eq sound known distinct, project_eq (sound.picked has) knownPicked distinct, Entries.select_picked]
      exact (gather_eq (sound.select known distinct) has).symm
  · have unknown : (ofEntries entries rowCount).schema.missing names ≠ [] := by
      intro none
      refine known fun name member => ?_
      have present : (ofEntries entries rowCount).schema.contains name = true := by
        simpa using List.filter_eq_nil_iff.mp none name member
      exact mem_names_of_contains present
    have unknownPicked : ((ofEntries entries rowCount).picked indices).schema.missing names ≠ [] := unknown
    rw [project_eq_unknown unknown, project_eq_unknown unknownPicked]
    rfl

/-- Without names no columns are left, and as many rows as before. -/
theorem project_nil (table : Table) : table.project [] = .ok ⟨⟨[]⟩, [], table.rowCount⟩ :=
  rfl

end Choosing

/-- How picking, joining and choosing go together in a table. All rows in order have its schema and its
rows, and are the table itself if and only if every bitmap is as long as its column and has no spare
words. Joining asks of the table in the middle that its bitmaps have no bits past their ends. A bitmap
that has words for all of its bits is read and extended without coming upon a missing word. -/
structure Algebra (table : Table) : Prop where
  joined : ∀ indices more, table.Has indices → table.Has more → ∃ upper lower whole,
    table.gather indices = .ok upper ∧ table.gather more = .ok lower ∧ upper.concat lower = .ok whole ∧
      table.gather (indices ++ more) = .ok whole
  repeated : ∀ indices positions, table.Has indices → (∀ position ∈ positions, position < indices.length) →
    ∃ chosen result, table.gather indices = .ok chosen ∧ chosen.gather positions = .ok result ∧
      (origins indices positions).length = positions.length ∧ table.gather (origins indices positions) = .ok result
  everything : ∃ same, table.gather (List.range table.rowCount) = .ok same ∧ same.schema = table.schema ∧
    same.rows = table.rows ∧ (same = table ↔ table.Solid)
  grouped : ∀ middle last, middle.Clean → last.WellFormed → ∀ whole,
    (table.concat middle >>= fun joined => joined.concat last) = .ok whole ↔
      (middle.concat last >>= fun tail => table.concat tail) = .ok whole
  taken : ∀ middle last, middle.WellFormed → last.WellFormed → middle.schema = table.schema → last.schema = table.schema →
    middle.types = table.types → last.types = table.types →
      ∃ whole, (table.concat middle >>= fun joined => joined.concat last) = .ok whole
  chosen : ∀ indices names, table.Has indices →
    (table.gather indices >>= fun picked => picked.project names) =
      (table.project names >>= fun projected => projected.gather indices)
  bare : ∀ indices, table.Has indices →
    (table.gather indices >>= fun picked => picked.project []) = .ok ⟨⟨[]⟩, [], indices.length⟩
  bounded : ∀ indices, (∃ index ∈ indices, table.rowCount ≤ index) → table.gather indices =
    .error (.internal s!"gather: index {indices.foldl max 0} out of bounds for column of length {table.rowCount}")
  found : ∀ entry ∈ table.columns, entry.2.nulls.Roomy →
    (∀ index, entry.2.nulls.isNull? index = some (entry.2.isNull index)) ∧
      ∀ other : NullBitmap, other.Roomy → entry.2.nulls.append? other = some (entry.2.nulls.append other)

/-- Every well-formed table with a column has this algebra: picking two lists of rows is picking one
and joining the other to it, picking from picked rows is picking once, all rows in order have the rows
of the table and are the table itself if its columns are stored as pushing stores them, joining is
associative, and columns may be chosen before or after rows. -/
theorem WellFormed.algebra {table : Table} (formed : table.WellFormed) (filled : table.columns ≠ []) : table.Algebra where
  joined indices more has hasMore := by
    have both : table.Has (indices ++ more) := List.forall_mem_append.mpr ⟨has, hasMore⟩
    exact ⟨_, _, _, formed.gather_eq_picked has, formed.gather_eq_picked hasMore, formed.concat_picked has hasMore,
      formed.gather_eq_picked both⟩
  repeated indices positions has within :=
    ⟨_, _, formed.gather_eq_picked has, formed.gather_picked has within, length_origins within,
      formed.gather_eq_picked (has.origins positions)⟩
  everything := by
    have made := formed.gather_eq_picked table.has_range
    exact ⟨_, made, rfl, rows_gather made, formed.picked_range_eq⟩
  grouped _ _ middleClean lastFormed _ := middleClean.concat_assoc formed lastFormed
  taken middle last middleFormed lastFormed middleSchema lastSchema middleTypes lastTypes := by
    obtain ⟨joined, made, joinedFormed, schema, types⟩ :=
      formed.exists_concat middleFormed (by rw [middleSchema]) middleTypes.symm
    obtain ⟨whole, continued, -⟩ :=
      joinedFormed.exists_concat lastFormed (by rw [schema, lastSchema]) (types.trans lastTypes.symm)
    exact ⟨whole, bind_eq_ok_iff.mpr ⟨joined, made, continued⟩⟩
  chosen indices names has := by
    rw [formed.gather_eq_picked has]
    exact formed.project_picked has names
  bare indices has := by
    rw [formed.gather_eq_picked has]
    exact project_nil _
  bounded indices := formed.gather_beyond filled
  found _ _ roomy := ⟨roomy.isNull?_eq, fun _ => roomy.append?_eq⟩

end Table

namespace Readings

theorem solid : table.Solid where
  toWellFormed := formed
  packed := by
    have pushed : ∀ flags : List Bool, (flags.foldl NullBitmap.push .empty).Tight := fun flags =>
      NullBitmap.Tight.empty.extended (NullBitmap.Tight.empty.clean.foldl_push flags)
    have stations : (⟨#[0b01010], 5⟩ : NullBitmap) = [false, true, false, true, false].foldl NullBitmap.push .empty := by
      decide
    have levels : (⟨#[0b10100], 5⟩ : NullBitmap) = [false, false, true, false, true].foldl NullBitmap.push .empty := by
      decide
    intro entry member
    rcases List.mem_pair.mp member with rfl | rfl
    · exact ⟨stations ▸ pushed _, rfl⟩
    · exact ⟨levels ▸ pushed _, rfl⟩

/-- Rows of readings, picked twice, joined with themselves, in another order and past the end. -/
theorem algebra_of_readings : table.columns ≠ [] ∧ table.Solid ∧
    table.gather [0, 1, 2, 3, 4] = .ok table ∧
    (table.gather [3, 1, 1] >>= fun picked => picked.gather [2, 0]) = table.gather [1, 3] ∧
    (∃ whole, (table.concat table >>= fun joined => joined.concat table) = .ok whole ∧
      (table.concat table >>= fun tail => table.concat tail) = .ok whole) ∧
    (table.gather [4, 0] >>= fun picked => picked.project ["level", "level"]) =
      .error (.schemaMismatch "Duplicate field name: level") ∧
    table.gather [0, 5] = .error (.internal "gather: index 5 out of bounds for column of length 5") := by
  have laws := formed.algebra (by decide)
  have has : table.Has [3, 1, 1] := by decide
  obtain ⟨picked, result, first, second, -, once⟩ := laws.repeated [3, 1, 1] [2, 0] has (by decide)
  obtain ⟨same, all, -, -, whole⟩ := laws.everything
  obtain ⟨thrice, front⟩ := laws.taken table table formed formed rfl rfl rfl rfl
  have back := (laws.grouped table table solid.clean formed thrice).mp front
  refine ⟨by decide, solid, all.trans (congrArg _ (whole.mpr solid)), ?_, ⟨thrice, front, back⟩, ?_,
    laws.bounded [0, 5] ⟨5, by decide, by decide⟩⟩
  · rw [first]
    exact second.trans once.symm
  · rw [laws.chosen [4, 0] ["level", "level"] (by decide)]
    rfl

end Readings

namespace LoneReading

def schema : Schema := ⟨[.nullable "level" .int64]⟩

/-- A table of one row whose bitmap is given. -/
def table (nulls : NullBitmap) : Table := ⟨schema, [("level", .int64 ⟨#[7], nulls⟩)], 1⟩

theorem formed (nulls : NullBitmap) : (table nulls).WellFormed :=
  ⟨rfl, List.nodup_singleton _, List.forall_mem_singleton.mpr rfl⟩

/-- A bitmap without a bit for the row gets one when all rows are picked, and a bitmap with a word too
many loses it: the rows are the same, the table is another. A bitmap that lacks a word cannot be read. -/
theorem all_rows_differ :
    let unmarked := table .empty
    let spacious := table ⟨#[0, 0], 1⟩
    let cramped : NullBitmap := ⟨#[], 1⟩
    Table.ofColumns schema [.int64 ⟨#[7], .empty⟩] = .ok unmarked ∧ unmarked.Clean ∧
      unmarked.gather (List.range 1) = .ok (table ⟨#[1], 1⟩) ∧ table ⟨#[1], 1⟩ ≠ unmarked ∧
      spacious.Clean ∧ spacious.gather (List.range 1) = .ok (table ⟨#[0], 1⟩) ∧ table ⟨#[0], 1⟩ ≠ spacious ∧
      (table cramped).WellFormed ∧ (∀ index, NullBitmap.bit cramped.words index = false) ∧
      cramped.isNull? 0 = none := by
  intro unmarked spacious cramped
  have apart : ∀ {nulls others : NullBitmap}, nulls ≠ others → table nulls ≠ table others := by
    intro nulls others different same
    cases same
    exact different rfl
  have unset : NullBitmap.Clean .empty := NullBitmap.Tight.empty.clean
  have spare : NullBitmap.Clean ⟨#[0, 0], 1⟩ := ⟨by decide, fun index _ => NullBitmap.bit_valid 65 index⟩
  exact ⟨rfl, ⟨formed _, List.forall_mem_singleton.mpr unset⟩, rfl, apart (by decide),
    ⟨formed _, List.forall_mem_singleton.mpr spare⟩, rfl, apart (by decide), formed _, NullBitmap.bit_valid 0, rfl⟩

end LoneReading

end StratifiedSampling
