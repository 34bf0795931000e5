import StratifiedSampling.Proofs.RowBatches
import StratifiedSampling.Proofs.TableAlgebra

/-! Tables written out as rows and built from them again. Rows come out as they went in, with
their values coerced, and a table that was built from rows in any number of steps is built from
its own rows once more: under every NULL stands the placeholder, so that nothing but rows is kept. -/

namespace StratifiedSampling

/-- What a value becomes in a column of some type that takes it. -/
def DataType.convert : DataType → Value → Value
  | .float64, .int64 value => .float64 (.ofInt value.toInt)
  | .numeric, .int64 value => .numeric (.ofInt value.toInt)
  | _, value => value

theorem DataType.eq_convert {dataType : DataType} {value stored : Value}
    (coerced : dataType.coerce value = some stored) : stored = dataType.convert value := by
  cases dataType <;> cases value <;> cases coerced <;> rfl

theorem DataType.convert_stored (dataType : DataType) : dataType.stored.convert = dataType.convert := by
  cases dataType <;> rfl

namespace Cells

variable {α : Type} {cells others : Cells α} {placeholder : α}

theorem cell?_eq_mark? (cells : Cells α) (index : Nat) :
    cells.cell? index = (cells.mark? index).bind fun mark => if mark.2 then none else some mark.1 := by
  unfold cell? mark?
  cases cells.data[index]? with
  | none => exact ite_self _
  | some value => rfl

/-- Packed cells that hold one placeholder in all rows that are marked as NULL. -/
structure Canonical (cells : Cells α) (placeholder : α) : Prop extends Packed cells where
  blank : ∀ index value, cells.mark? index = some (value, true) → value = placeholder

theorem canonical_empty (placeholder : α) : (empty : Cells α).Canonical placeholder :=
  ⟨.empty, nofun⟩

theorem Canonical.push (canonical : cells.Canonical placeholder) (value : α) :
    (cells.push value).Canonical placeholder := by
  refine ⟨canonical.toPacked.push value, fun index held marked => ?_⟩
  rw [Cells.push, canonical.clean.mark?_push] at marked
  split at marked
  · cases marked
  · exact canonical.blank index held marked

theorem Canonical.pushNull (canonical : cells.Canonical placeholder) : (cells.pushNull placeholder).Canonical placeholder := by
  refine ⟨canonical.toPacked.pushNull placeholder, fun index held marked => ?_⟩
  rw [Cells.pushNull, canonical.clean.mark?_push] at marked
  split at marked
  · cases marked
    rfl
  · exact canonical.blank index held marked

theorem Canonical.gather (canonical : cells.Canonical placeholder) {indices : List Nat}
    (inside : ∀ index ∈ indices, index < cells.size) : (cells.gather indices).Canonical placeholder := by
  refine ⟨packed_gather inside, fun position held marked => ?_⟩
  rw [mark?_gather inside] at marked
  obtain ⟨index, -, marked⟩ := Option.bind_eq_some_iff.mp marked
  exact canonical.blank index held marked

theorem Canonical.append (canonical : cells.Canonical placeholder) (othersCanonical : others.Canonical placeholder) :
    (cells.append others).Canonical placeholder := by
  refine ⟨canonical.toPacked.append othersCanonical.aligned, fun index held marked => ?_⟩
  rw [canonical.clean.mark?_append] at marked
  split at marked
  · exact canonical.blank index held marked
  · exact othersCanonical.blank _ held marked

theorem Canonical.mark?_eq (canonical : cells.Canonical placeholder) {index : Nat} (inside : index < cells.size) :
    cells.mark? index = some ((cells.cell? index).elim (placeholder, true) fun value => (value, false)) := by
  have found : cells.mark? index = some (cells.data[index], cells.nulls.isNull index) := by
    rw [mark?, Array.getElem?_eq_getElem inside]
    rfl
  rw [cell?_eq_mark?]
  cases null : cells.nulls.isNull index with
  | false =>
    rw [null] at found
    rw [found]
    rfl
  | true =>
    rw [null] at found
    rw [found, canonical.blank index _ found]
    rfl

/-- Canonical cells are known by what is read from them. -/
theorem Canonical.ext (canonical : cells.Canonical placeholder) (othersCanonical : others.Canonical placeholder)
    (sized : cells.size = others.size) (same : ∀ index < cells.size, cells.cell? index = others.cell? index) :
    cells = others := by
  refine canonical.toPacked.ext othersCanonical.toPacked fun index => ?_
  by_cases inside : index < cells.size
  · rw [canonical.mark?_eq inside, othersCanonical.mark?_eq (sized ▸ inside), same index inside]
  · rw [mark?_eq_none _ (Nat.le_of_not_lt inside), mark?_eq_none _ (sized ▸ Nat.le_of_not_lt inside)]

theorem Canonical.ext_values {wrap : α → Value} (canonical : cells.Canonical placeholder)
    (othersCanonical : others.Canonical placeholder)
    (same : ((List.range cells.size).map fun index => ((cells.cell? index).map wrap).getD .null) =
      (List.range others.size).map fun index => ((others.cell? index).map wrap).getD .null)
    (injective : ∀ value other, wrap value = wrap other → value = other) (solid : ∀ value, wrap value ≠ .null) :
    cells = others := by
  have sized : cells.size = others.size := by simpa using congrArg List.length same
  refine canonical.ext othersCanonical sized fun index inside => ?_
  rw [← sized] at same
  have here := List.map_inj_left.mp same index (List.mem_range.mpr inside)
  cases first : cells.cell? index with
  | none =>
    cases second : others.cell? index with
    | none => rfl
    | some value =>
      rw [first, second] at here
      exact absurd here.symm (solid value)
  | some value =>
    rw [first] at here
    cases second : others.cell? index with
    | none =>
      rw [second] at here
      exact absurd here (solid value)
    | some other =>
      rw [second] at here
      exact congrArg some (injective value other here)

end Cells

namespace Column

variable {column other pushed joined : Column}

/-- Columns as pushing leaves them, with the placeholder of their type under every NULL. -/
def Canonical : Column → Prop
  | bool cells => cells.Canonical false
  | int64 cells => cells.Canonical 0
  | float64 cells => cells.Canonical .zero
  | numeric cells => cells.Canonical (.ofInt 0)
  | string cells => cells.Canonical ""
  | bytes cells => cells.Canonical []
  | date cells => cells.Canonical ⟨0⟩
  | timestamp cells => cells.Canonical ⟨0, 0⟩

theorem Canonical.packed (canonical : column.Canonical) : column.Packed := by
  cases column <;> exact Cells.Canonical.toPacked canonical

theorem canonical_empty (dataType : DataType) : (empty dataType).Canonical := by
  cases dataType <;> exact Cells.canonical_empty _

theorem Canonical.push {value : Value} (canonical : column.Canonical) (added : column.push value = .ok pushed) :
    pushed.Canonical := by
  unfold Column.push at added
  split at added <;> cases added
  next => cases column <;> exact Cells.Canonical.pushNull canonical
  all_goals exact Cells.Canonical.push canonical _

theorem Canonical.pushAll {values : List Value} (canonical : column.Canonical) (added : column.pushAll values = .ok pushed) :
    pushed.Canonical := by
  induction values generalizing column with
  | nil =>
    cases added
    exact canonical
  | cons value rest ih =>
    rw [pushAll_cons] at added
    obtain ⟨next, first, others⟩ := bind_eq_ok added
    exact ih (canonical.push first) others

theorem Canonical.picked {indices : List Nat} (canonical : column.Canonical)
    (inside : ∀ index ∈ indices, index < column.size) : (column.picked indices).Canonical := by
  cases column <;> exact Cells.Canonical.gather canonical inside

theorem Canonical.append (canonical : column.Canonical) (otherCanonical : other.Canonical)
    (made : column.append other = .ok joined) : joined.Canonical := by
  cases column <;> cases other <;> cases made <;> exact Cells.Canonical.append canonical otherCanonical

/-- Canonical columns of one type are known by their values. -/
theorem Canonical.ext (canonical : column.Canonical) (otherCanonical : other.Canonical)
    (sameType : column.dataType = other.dataType) (same : column.values = other.values) : column = other := by
  cases column <;> cases other <;> cases sameType <;>
    exact congrArg _ (Cells.Canonical.ext_values canonical otherCanonical same (by rintro value other ⟨⟩; rfl) nofun)

theorem coerce_value (column : Column) (index : Nat) :
    column.dataType.coerce (column.value index) = some (column.value index) := by
  cases column <;> simp only [value, dataType] <;> cases Cells.cell? _ index <;> rfl

/-- Values that a column takes as they are become its last values. -/
theorem Packed.exists_pushAll (packed : column.Packed) {values : List Value}
    (kept : ∀ value ∈ values, column.dataType.coerce value = some value) :
    ∃ pushed, column.pushAll values = .ok pushed ∧ pushed.values = column.values ++ values := by
  induction values generalizing column with
  | nil => exact ⟨column, rfl, (List.append_nil _).symm⟩
  | cons value rest ih =>
    obtain ⟨here, later⟩ := List.forall_mem_cons.mp kept
    rcases column.push_cases value with ⟨stored, next, coerced, added⟩ | ⟨refused, -⟩
    · obtain ⟨nextPacked, sameType, -⟩ := packed.push added
      rw [← sameType] at later
      obtain ⟨pushed, taken, values⟩ := ih nextPacked later
      refine ⟨pushed, by rw [pushAll_cons, added]; exact taken, ?_⟩
      rw [values, packed.values_push here added, List.append_assoc, List.singleton_append]
    · cases here.symm.trans refused

/-- A canonical column is made of its own values. -/
theorem Canonical.pushAll_values (canonical : column.Canonical) {dataType : DataType}
    (stored : column.dataType = dataType.stored) : (empty dataType).pushAll column.values = .ok column := by
  have sameType : (empty dataType).dataType = column.dataType := (dataType_empty dataType).trans stored.symm
  have kept : ∀ value ∈ column.values, (empty dataType).dataType.coerce value = some value := by
    intro value member
    obtain ⟨index, -, rfl⟩ := List.mem_map.mp member
    rw [sameType]
    exact column.coerce_value index
  obtain ⟨pushed, taken, values⟩ := (packed_empty dataType).exists_pushAll kept
  have none : (empty dataType).values = [] := by rw [Column.values, size_empty]; rfl
  obtain ⟨-, pushedType, -⟩ := (packed_empty dataType).pushAll taken
  have whole := ((canonical_empty dataType).pushAll taken).ext canonical (pushedType.trans sameType)
    (by rw [values, none, List.nil_append])
  rw [taken, whole]

end Column

theorem Schema.validate_of_nodup {schema : Schema} (distinct : schema.names.Nodup) : schema.validate = .ok () := by
  rw [validate, Table.firstRepeated_eq_none distinct fun _ _ => List.not_mem_nil]

namespace Table

theorem records_eq (table : Table) : table.records = .ok table.rows :=
  mapM_eq_map fun _ member => if_pos (List.mem_range.mp member)

section Conversion
variable {types : List DataType} {row : Row} {rows : List Row} {table : Table}

/-- A row that is taken whole has each of its values converted. -/
theorem coerceRow_eq_zipWith (judged : judgeRow types row = .ok ()) :
    coerceRow types row = types.zipWith DataType.convert row := by
  induction types generalizing row with
  | nil => rfl
  | cons dataType types ih =>
    cases row with
    | nil => rfl
    | cons value values =>
      rw [judgeRow] at judged
      rw [coerceRow, List.zipWith_cons_cons]
      cases coerced : dataType.coerce value with
      | none =>
        rw [coerced] at judged
        cases judged
      | some stored =>
        rw [coerced] at judged
        exact congrArg₂ _ (DataType.eq_convert coerced) (ih judged)

theorem verdict_eq_ok (judged : table.verdict row = .ok ()) :
    row.length = table.width ∧ table.written row = table.types.zipWith DataType.convert row := by
  unfold verdict at judged
  split at judged
  next => cases judged
  next even =>
    have even := not_not.mp even
    exact ⟨even, (if_pos even).trans (coerceRow_eq_zipWith judged)⟩

/-- Rows that are taken together are the last rows of a table, with their values converted. -/
theorem Solid.rows_pushRows {grown : Table} (solid : table.Solid) (taken : table.pushRows rows = .ok grown) :
    (∀ row ∈ rows, row.length = table.width) ∧
      grown.rows = table.rows ++ rows.map (table.types.zipWith DataType.convert) := by
  obtain ⟨each, rfl⟩ := pushRows_eq_pushEach.mp taken
  rw [pushEach_outcomes solid.packed, List.forall_mem_map] at each
  have refusedWhole : ∀ row ∈ rows, (table.verdict row).toOption.isSome = false → table.written row = [] := by
    intro row member refused
    rw [each row member] at refused
    cases refused
  have all : rows.filter (fun row => (table.verdict row).toOption.isSome) = rows := by
    refine List.filter_eq_self.mpr fun row member => ?_
    rw [each row member]
    rfl
  refine ⟨fun row member => (verdict_eq_ok (each row member)).1, ?_⟩
  rw [rows_pushEach solid refusedWhole, all]
  exact congrArg _ (List.map_congr_left fun row member => (verdict_eq_ok (each row member)).2)

theorem ofRows_eq_ok {schema : Schema} : ofRows schema rows = .ok table ↔
    schema.names.Nodup ∧ (empty schema).pushRows rows = .ok table := by
  constructor
  · intro built
    obtain ⟨checked, validated, built⟩ := bind_eq_ok built
    exact ⟨Schema.validate_eq_ok validated, built⟩
  · rintro ⟨distinct, taken⟩
    rw [ofRows, Schema.validate_of_nodup distinct]
    exact taken

theorem types_empty {schema : Schema} (distinct : schema.names.Nodup) :
    (empty schema).types = schema.fields.map fun field => field.dataType.stored := by
  rw [empty_eq distinct, types, ofEntries, List.map_map, List.map_map]
  exact List.map_congr_left fun field _ => Column.dataType_empty field.dataType

/-- A table that is built from rows has these rows, each value converted to the type of its field. -/
theorem rows_ofRows {schema : Schema} (built : ofRows schema rows = .ok table) :
    table.schema = schema ∧ (∀ row ∈ rows, row.length = schema.size) ∧
      table.rows = rows.map (schema.fields.zipWith fun field value => field.dataType.convert value) := by
  obtain ⟨distinct, taken⟩ := ofRows_eq_ok.mp built
  have start : ofRows schema [] = .ok (empty schema) :=
    ofRows_eq_ok.mpr ⟨distinct, pushRows_eq_pushEach.mpr ⟨by simp [pushEach], rfl⟩⟩
  obtain ⟨even, rows⟩ := (solid_ofRows start).rows_pushRows taken
  have width : (empty schema).width = schema.size := by
    rw [empty_eq distinct, Table.width, ofEntries, List.length_map, List.length_map, Schema.size]
  refine ⟨(intact_ofRows built).2.1, width ▸ even, ?_⟩
  have none : (empty schema).rows = [] := rfl
  rw [rows, none, List.nil_append, types_empty distinct]
  refine List.map_congr_left fun row _ => ?_
  rw [List.zipWith_map_left]
  exact congrArg (List.zipWith · _ _) (funext fun field => field.dataType.convert_stored)

end Conversion

/-- A canonical column that stores what its field declares. -/
structure Settled (entry : Field × Column) : Prop where
  canonical : entry.2.Canonical
  stored : entry.2.dataType = entry.1.dataType.stored

/-- A well-formed table in which all columns are stored as pushing stores them. -/
structure Canonical (table : Table) : Prop extends WellFormed table where
  canonical : ∀ entry ∈ table.columns, entry.2.Canonical
  typed : table.types = table.schema.fields.map fun field => field.dataType.stored

section Histories
variable {entries : Entries} {rowCount : Nat} {table other result : Table} {schema : Schema} {rows : List Row}

theorem canonical_ofEntries (sound : entries.Sound rowCount) (settled : ∀ entry ∈ entries, Settled entry) :
    (ofEntries entries rowCount).Canonical where
  toWellFormed := wellFormed_ofEntries sound
  canonical := by
    intro entry member
    obtain ⟨source, listed, rfl⟩ := List.mem_map.mp member
    exact (settled source listed).canonical
  typed := by
    rw [types, ofEntries, List.map_map, List.map_map]
    exact List.map_congr_left fun entry member => (settled entry member).stored

theorem Canonical.exists_settled (canonical : table.Canonical) : ∃ (entries : Entries) (rowCount : Nat),
    table = ofEntries entries rowCount ∧ entries.Sound rowCount ∧ ∀ entry ∈ entries, Settled entry := by
  obtain ⟨entries, rowCount, rfl, sound⟩ := canonical.exists_entries
  have typed := canonical.typed
  rw [types, ofEntries, List.map_map, List.map_map] at typed
  refine ⟨entries, rowCount, rfl, sound, fun entry member => ⟨?_, List.map_inj_left.mp typed entry member⟩⟩
  exact canonical.canonical (entry.1.name, entry.2) (List.mem_map.mpr ⟨entry, member, rfl⟩)

theorem pushColumns_canonical {columns grown : List (String × Column)}
    (canonical : ∀ entry ∈ columns, entry.2.Canonical) (made : pushColumns columns rows = .ok grown) :
    ∀ entry ∈ grown, entry.2.Canonical := by
  induction columns generalizing rows grown with
  | nil =>
    cases made
    simp
  | cons entry columns ih =>
    obtain ⟨column, first, made⟩ := bind_eq_ok made
    obtain ⟨others, continued, made⟩ := bind_eq_ok made
    cases made
    obtain ⟨here, later⟩ := List.forall_mem_cons.mp canonical
    exact List.forall_mem_cons.mpr ⟨here.pushAll first, ih later continued⟩

theorem Canonical.pushRows (canonical : table.Canonical) (taken : table.pushRows rows = .ok result) : result.Canonical := by
  obtain ⟨entries, rowCount, rfl, sound, settled⟩ := canonical.exists_settled
  obtain ⟨even, columns, made, rfl⟩ := pushRows_eq_ok.mp taken
  have filled : ∀ entry ∈ entries, Filled rowCount entry := fun entry member =>
    ⟨(settled entry member).canonical.packed, (settled entry member).stored, sound.even entry member⟩
  have wide : ∀ row ∈ rows, row.length = entries.length := by simpa [width, ofEntries] using even
  obtain ⟨pushed, rfl, fields, all⟩ := pushColumns_eq_ok filled wide made
  have names : pushed.names = entries.names := by
    simpa [Entries.names, Function.comp_def] using congrArg (List.map Field.name) fields
  have kept := pushColumns_canonical canonical.canonical made
  have same : { ofEntries entries rowCount with
      columns := pushed.map fun entry => (entry.1.name, entry.2)
      rowCount := (ofEntries entries rowCount).rowCount + rows.length } =
      ofEntries pushed (rowCount + rows.length) := by
    simp only [ofEntries, fields]
  rw [same]
  refine canonical_ofEntries ⟨names ▸ sound.distinct, fun entry member => (all entry member).size⟩ fun entry member => ?_
  exact ⟨kept (entry.1.name, entry.2) (List.mem_map.mpr ⟨entry, member, rfl⟩), (all entry member).stored⟩

theorem canonical_ofRows (built : ofRows schema rows = .ok table) : table.Canonical := by
  obtain ⟨distinct, taken⟩ := ofRows_eq_ok.mp built
  refine Canonical.pushRows ?_ taken
  rw [empty_eq distinct]
  refine canonical_ofEntries ⟨?_, fun entry member => ?_⟩ fun entry member => ?_
  · rw [Entries.names, List.map_map]
    exact distinct
  · obtain ⟨field, -, rfl⟩ := List.mem_map.mp member
    exact Column.size_empty _
  · obtain ⟨field, -, rfl⟩ := List.mem_map.mp member
    exact ⟨Column.canonical_empty _, Column.dataType_empty _⟩

theorem Canonical.gather (canonical : table.Canonical) {indices : List Nat} (made : table.gather indices = .ok result) :
    result.Canonical := by
  obtain ⟨inside, rfl⟩ := gather_eq_ok made
  obtain ⟨⟨named, distinct, even⟩, canonical, typed⟩ := canonical
  refine ⟨⟨?_, distinct, fun entry member => ?_⟩, fun entry member => ?_, ?_⟩
  · rw [List.map_map]
    exact named
  · obtain ⟨source, listed, rfl⟩ := List.mem_map.mp member
    exact Column.size_picked (inside source listed)
  · obtain ⟨source, listed, rfl⟩ := List.mem_map.mp member
    exact (canonical source listed).picked (inside source listed)
  · rw [← typed, types, List.map_map]
    exact List.map_congr_left fun entry _ => Column.dataType_picked entry.2 indices

theorem Canonical.project (canonical : table.Canonical) {names : List String} (made : table.project names = .ok result) :
    result.Canonical := by
  obtain ⟨entries, rowCount, rfl, sound, settled⟩ := canonical.exists_settled
  obtain ⟨known, distinct, rfl⟩ := project_eq_ok sound made
  exact canonical_ofEntries (sound.select known distinct) fun entry member => settled entry (Entries.mem_of_mem_select member)

theorem Canonical.concat (canonical : table.Canonical) (otherCanonical : other.Canonical)
    (made : table.concat other = .ok result) : result.Canonical := by
  have formed := canonical.toWellFormed.concat otherCanonical.toWellFormed made
  obtain ⟨-, columns, joins, rfl⟩ := (canonical.concat_eq_ok otherCanonical.toWellFormed).mp made
  exact ⟨formed, joins.keeps (fun _ _ _ => Column.Canonical.append) canonical.canonical otherCanonical.canonical,
    joins.types.trans canonical.typed⟩

theorem Canonical.withColumn (canonical : table.Canonical) {field : Field} {column : Column}
    (settled : Settled (field, column)) (made : table.withColumn field column = .ok result) : result.Canonical := by
  obtain ⟨entries, rowCount, rfl, sound, each⟩ := canonical.exists_settled
  obtain ⟨new, sized, rfl⟩ := withColumn_eq_ok made
  exact canonical_ofEntries (sound.append new sized)
    (List.forall_mem_append.mpr ⟨each, List.forall_mem_singleton.mpr settled⟩)

/-- Tables that are built from rows and then changed in any number of steps. -/
inductive Reached : Table → Prop where
  | built {schema : Schema} {rows : List Row} {table : Table} (made : ofRows schema rows = .ok table) : Reached table
  | pushed {table result : Table} {rows : List Row} (before : Reached table) (made : table.pushRows rows = .ok result) :
      Reached result
  | gathered {table result : Table} {indices : List Nat} (before : Reached table)
      (made : table.gather indices = .ok result) : Reached result
  | projected {table result : Table} {names : List String} (before : Reached table)
      (made : table.project names = .ok result) : Reached result
  | joined {table other result : Table} (before : Reached table) (otherBefore : Reached other)
      (made : table.concat other = .ok result) : Reached result
  | widened {table result : Table} {field : Field} {dataType : DataType} {values : List Value} {column : Column}
      (before : Reached table) (stored : Column.ofValues dataType values = .ok column)
      (typed : column.dataType = field.dataType.stored) (made : table.withColumn field column = .ok result) :
      Reached result

theorem Reached.canonical (reached : Reached table) : table.Canonical := by
  induction reached with
  | built made => exact canonical_ofRows made
  | pushed _ made ih => exact ih.pushRows made
  | gathered _ made ih => exact ih.gather made
  | projected _ made ih => exact ih.project made
  | joined _ _ made ih otherIh => exact ih.concat otherIh made
  | widened _ stored typed made ih => exact ih.withColumn ⟨(Column.canonical_empty _).pushAll stored, typed⟩ made

/-- Columns are filled again from the rows that are read off them. -/
theorem pushColumns_rows (settled : ∀ entry ∈ entries, Settled entry) (even : ∀ entry ∈ entries, entry.2.size = rowCount) :
    pushColumns (entries.map fun entry => (entry.1.name, .empty entry.1.dataType))
        ((List.range rowCount).map fun index => entries.map fun entry => entry.2.value index) =
      .ok (entries.map fun entry => (entry.1.name, entry.2)) := by
  induction entries with
  | nil => rfl
  | cons entry entries ih =>
    obtain ⟨here, later⟩ := List.forall_mem_cons.mp settled
    obtain ⟨size, sizes⟩ := List.forall_mem_cons.mp even
    have heads : ((List.range rowCount).map fun index =>
        (entry :: entries).map fun entry => entry.2.value index).filterMap List.head? = entry.2.values := by
      rw [List.filterMap_map, Column.values, size]
      exact List.filterMap_eq_map_iff_forall_eq_some.mpr fun _ _ => rfl
    have tails : ((List.range rowCount).map fun index => (entry :: entries).map fun entry => entry.2.value index).map
        List.tail = (List.range rowCount).map fun index => entries.map fun entry => entry.2.value index := by
      rw [List.map_map]
      rfl
    rw [List.map_cons, pushColumns, heads, tails, here.canonical.pushAll_values here.stored, ih later sizes]
    rfl

/-- A canonical table is what its schema and its rows say. -/
theorem Canonical.ofRows_rows (canonical : table.Canonical) : ofRows table.schema table.rows = .ok table := by
  obtain ⟨entries, rowCount, rfl, sound, settled⟩ := canonical.exists_settled
  have start : empty (ofEntries entries rowCount).schema =
      ⟨⟨entries.map Prod.fst⟩, entries.map fun entry => (entry.1.name, .empty entry.1.dataType), 0⟩ := by
    rw [empty_eq canonical.distinct]
    simp [ofEntries, Function.comp_def]
  have rows : (ofEntries entries rowCount).rows =
      (List.range rowCount).map fun index => entries.map fun entry => entry.2.value index := by
    exact List.map_congr_left fun index _ => rowAt_ofEntries entries rowCount index
  rw [ofRows_eq_ok, start, rows]
  refine ⟨canonical.distinct, pushRows_eq_ok.mpr ⟨?_, _, pushColumns_rows settled sound.even, ?_⟩⟩
  · simp [width]
  · simp [ofEntries]

end Histories

end Table

/-- Rows that a table is built from are read from it in their order, each value converted to the
type of its field, and any table that has come of such tables by pushing, picking, choosing,
joining and adding columns is built from its own rows as it is, bitmaps and all. -/
theorem row_form_inverts_columns :
    (∀ schema rows table, Table.ofRows schema rows = .ok table →
      table.schema = schema ∧ (∀ row ∈ rows, row.length = schema.size) ∧
      table.records = .ok (rows.map (schema.fields.zipWith fun field value => field.dataType.convert value))) ∧
    ∀ table, Table.Reached table → table.records >>= Table.ofRows table.schema = .ok table := by
  refine ⟨fun schema rows table built => ?_, fun table reached => ?_⟩
  · obtain ⟨same, even, read⟩ := Table.rows_ofRows built
    exact ⟨same, even, by rw [Table.records_eq, read]⟩
  · rw [Table.records_eq]
    exact reached.canonical.ofRows_rows

namespace TwoNumbers

/-- A whole number among doubles, and NULL in either column. -/
def mixed : Table :=
  ⟨⟨[.nullable "left" .float64, .nullable "right" .int64]⟩,
    [("left", .float64 ((Cells.empty.push (.ofInt 1)).pushNull .zero)), ("right", .int64 ((Cells.empty.pushNull 0).push 2))],
    2⟩

theorem rows_and_back : Table.ofRows mixed.schema [[.int64 1, .null], [.null, .int64 2]] = .ok mixed ∧
    mixed.records = .ok [[.float64 (.ofInt 1), .null], [.null, .int64 2]] ∧
    mixed.gather [1, 0, 1] = .ok (mixed.picked [1, 0, 1]) ∧
    (mixed.picked [1, 0, 1]).records >>= Table.ofRows mixed.schema = .ok (mixed.picked [1, 0, 1]) := by
  have built : Table.ofRows mixed.schema [[.int64 1, .null], [.null, .int64 2]] = .ok mixed := rfl
  have made : mixed.gather [1, 0, 1] = .ok (mixed.picked [1, 0, 1]) := rfl
  obtain ⟨forward, back⟩ := row_form_inverts_columns
  exact ⟨built, (forward _ _ _ built).2.2, made, back _ (.gathered (.built built) made)⟩

end TwoNumbers

end StratifiedSampling
