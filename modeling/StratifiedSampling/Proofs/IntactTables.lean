import Mathlib.Data.List.Forall2
import StratifiedSampling.Proofs.JoinRows
import StratifiedSampling.Relation.OrderStatistics

/-! Tables whose columns hold what their fields declare. Every table that is built from rows
is one, and so is every table that an operation makes of such tables. An operation that
succeeds has passed its checks, so that the equations for tables of entries apply. -/

namespace StratifiedSampling

namespace Schema

theorem nodup_of_firstRepeated {seen names : List String} (unique : firstRepeated seen names = none) :
    names.Nodup ∧ ∀ name ∈ names, name ∉ seen := by
  induction names generalizing seen with
  | nil => simp
  | cons name rest ih =>
    rw [firstRepeated] at unique
    split at unique
    next => cases unique
    next new =>
      obtain ⟨distinct, apart⟩ := ih unique
      refine ⟨List.nodup_cons.mpr ⟨fun listed => apart name listed List.mem_cons_self, distinct⟩, ?_⟩
      intro other member
      rcases List.mem_cons.mp member with rfl | member
      · simpa using new
      · exact fun listed => apart other member (List.mem_cons_of_mem _ listed)

theorem validate_eq_ok {schema : Schema} {checked : Unit} (validated : schema.validate = .ok checked) :
    schema.names.Nodup := by
  unfold validate at validated
  split at validated
  next unique => exact (nodup_of_firstRepeated unique).1
  next => cases validated

theorem resolve_eq_ok {schema : Schema} {names : List String} {indices : List Nat}
    (resolved : schema.resolve names = .ok indices) : ∀ name ∈ names, schema.contains name = true := by
  unfold resolve at resolved
  split at resolved
  next none =>
    intro name member
    simpa using List.filter_eq_nil_iff.mp none name member
  next => cases resolved

end Schema

namespace Entries

/-- Every column holds cells of its field's type. -/
def Fitted (entries : Entries) : Prop :=
  ∀ entry ∈ entries, entry.2.Fits entry.1.dataType

theorem Fitted.select {entries : Entries} (fitted : entries.Fitted) (names : List String) :
    (entries.select names).Fitted := by
  intro entry member
  obtain ⟨name, -, found⟩ := List.mem_filterMap.mp member
  exact fitted entry (mem_of_lookup? found).1

theorem Fitted.picked {entries : Entries} (fitted : entries.Fitted) {indices : List Nat}
    (inside : ∀ entry ∈ entries, ∀ index ∈ indices, index < entry.2.size) : (entries.picked indices).Fitted := by
  intro entry member
  obtain ⟨source, listed, rfl⟩ := List.mem_map.mp member
  exact (fitted source listed).picked (inside source listed)

theorem Fitted.append {entries : Entries} (fitted : entries.Fitted) {field : Field} {column : Column}
    (fits : column.Fits field.dataType) : Fitted (entries ++ [(field, column)]) := by
  intro entry member
  rcases List.mem_append.mp member with member | member
  · exact fitted entry member
  · exact List.mem_singleton.mp member ▸ fits

end Entries

namespace Table

/-- A well-formed table whose columns hold, in the order of the schema, what the fields declare. -/
structure Intact (table : Table) : Prop extends WellFormed table where
  fitted : List.Forall₂ (fun field entry => entry.2.Fits field.dataType) table.schema.fields table.columns

theorem intact_ofEntries {entries : Entries} {rowCount : Nat} (sound : entries.Sound rowCount)
    (fitted : entries.Fitted) : (ofEntries entries rowCount).Intact where
  toWellFormed := wellFormed_ofEntries sound
  fitted := by
    rw [ofEntries, List.forall₂_map_left_iff, List.forall₂_map_right_iff]
    exact List.forall₂_same.mpr fitted

theorem Intact.entries {table : Table} (intact : table.Intact) :
    ∃ (entries : Entries) (rowCount : Nat), table = ofEntries entries rowCount ∧ entries.Sound rowCount ∧
      entries.Fitted := by
  obtain ⟨entries, sound, same⟩ := intact.toWellFormed.entries
  refine ⟨entries, table.rowCount, same, sound, ?_⟩
  have fitted := intact.fitted
  rw [same, ofEntries, List.forall₂_map_left_iff, List.forall₂_map_right_iff] at fitted
  exact List.forall₂_same.mp fitted

section Inversion
variable {entries : Entries} {rowCount : Nat} {table : Table}

theorem mem_names_of_contains {name : String} (present : (ofEntries entries rowCount).schema.contains name = true) :
    name ∈ entries.names := by
  by_contra unlisted
  rw [Schema.contains, index?_eq_none unlisted] at present
  cases present

theorem ofColumns_eq_ok (even : ∀ entry ∈ entries, entry.2.size = rowCount)
    (built : ofColumns ⟨entries.map Prod.fst⟩ entries.columns = .ok table) :
    ∃ count, entries.Sound count ∧ table = ofEntries entries count := by
  obtain ⟨checked, validated, -⟩ := bind_eq_ok built
  have distinct : entries.names.Nodup := by
    simpa [Schema.names, Entries.names, Function.comp_def] using Schema.validate_eq_ok validated
  have sound : entries.Sound rowCount := ⟨distinct, even⟩
  rw [ofColumns_eq sound] at built
  cases built
  refine ⟨_, ⟨distinct, fun entry member => ?_⟩, rfl⟩
  cases entries with
  | nil => cases member
  | cons first rest => simp [even first List.mem_cons_self, even entry member]

theorem project_eq_ok (sound : entries.Sound rowCount) {names : List String}
    (built : (ofEntries entries rowCount).project names = .ok table) :
    (∀ name ∈ names, name ∈ entries.names) ∧ names.Nodup ∧ table = ofEntries (entries.select names) rowCount := by
  have whole := built
  obtain ⟨indices, resolved, built⟩ := bind_eq_ok built
  have known : ∀ name ∈ names, name ∈ entries.names := fun name member =>
    mem_names_of_contains (Schema.resolve_eq_ok resolved name member)
  obtain ⟨projected, made, -⟩ := bind_eq_ok built
  obtain ⟨checked, validated, -⟩ := bind_eq_ok made
  have distinct : names.Nodup := by
    obtain ⟨others, again, listed⟩ := resolve_eq rowCount known
    cases resolved.symm.trans again
    have fields : indices.filterMap (fun index => (ofEntries entries rowCount).schema.fields[index]?) =
        (entries.select names).map Prod.fst :=
      filterMap_of_map_some (fun index entry found => by simp [ofEntries, found]) listed
    have unique := Schema.validate_eq_ok validated
    rw [fields, Schema.names, List.map_map] at unique
    exact Entries.names_select known ▸ unique
  rw [project_eq sound known distinct] at whole
  cases whole
  exact ⟨known, distinct, rfl⟩

theorem gather_eq_ok {source : Table} {indices : List Nat} (built : source.gather indices = .ok table) :
    (∀ entry ∈ source.columns, ∀ index ∈ indices, index < entry.2.size) ∧
      table = { source with
        columns := source.columns.map fun entry => (entry.1, entry.2.picked indices)
        rowCount := indices.length } := by
  have inside : ∀ entry ∈ source.columns, ∀ index ∈ indices, index < entry.2.size := by
    intro entry member
    obtain ⟨columns, each, -⟩ := bind_eq_ok built
    obtain ⟨result, chosen⟩ := (mapM_eq_ok each).1 entry member
    obtain ⟨column, gathered, -⟩ := bind_eq_ok chosen
    exact (Column.gather_eq_ok gathered).2
  rw [gather_eq_map inside] at built
  cases built
  exact ⟨inside, rfl⟩

/-- The rows of gathered rows are those at their positions. -/
theorem rows_gather {source : Table} {indices : List Nat} (built : source.gather indices = .ok table) :
    table.rows = indices.map source.rowAt := by
  obtain ⟨inside, rfl⟩ := gather_eq_ok built
  refine List.ext_getElem (by simp [rows]) fun position first second => ?_
  rw [List.length_map] at second
  have listed : indices[position]? = some indices[position] := List.getElem?_eq_getElem second
  simp only [rows, rowAt, List.getElem_map, List.getElem_range, List.map_map]
  exact List.map_congr_left fun entry member => Column.value_picked (inside entry member) listed

theorem withColumn_eq_ok {field : Field} {column : Column}
    (built : (ofEntries entries rowCount).withColumn field column = .ok table) :
    field.name ∉ entries.names ∧ column.size = rowCount ∧ table = ofEntries (entries ++ [(field, column)]) rowCount := by
  have whole := built
  unfold withColumn at built
  obtain ⟨absent, built⟩ := check_eq_ok built
  obtain ⟨sized, -⟩ := check_eq_ok built
  have new : field.name ∉ entries.names := by
    intro listed
    obtain ⟨entry, found⟩ := Entries.lookup?_of_mem_names listed
    obtain ⟨index, position, -⟩ := index?_of_lookup? rowCount found
    rw [Schema.contains, position] at absent
    exact absent rfl
  have same : column.size = rowCount := of_not_not sized
  rw [withColumn_eq entries field new same] at whole
  cases whole
  exact ⟨new, same, rfl⟩

theorem resolveColumns_eq_ok {names : List String} {columns : List Column}
    (resolved : (ofEntries entries rowCount).resolveColumns names = .ok columns) :
    (∀ name ∈ names, name ∈ entries.names) ∧ columns = (entries.select names).columns := by
  obtain ⟨indices, found, -⟩ := bind_eq_ok resolved
  have known : ∀ name ∈ names, name ∈ entries.names := fun name member =>
    mem_names_of_contains (Schema.resolve_eq_ok found name member)
  rw [resolveColumns_eq known] at resolved
  cases resolved
  exact ⟨known, rfl⟩

theorem resolveColumn_eq_ok {name : String} {column : Column}
    (resolved : (ofEntries entries rowCount).resolveColumn name = .ok column) : name ∈ entries.names := by
  by_contra unlisted
  rw [resolveColumn, index?_eq_none unlisted] at resolved
  cases resolved

theorem columnAt_eq_ok {index : Nat} {column : Column} (found : (ofEntries entries rowCount).columnAt index = .ok column) :
    ∃ entry ∈ entries, entries[index]? = some entry ∧ column = entry.2 := by
  unfold columnAt at found
  split at found
  next listed =>
    cases found
    simp only [columnAt?, ofEntries, List.getElem?_map, Option.map_map, Option.map_eq_some_iff] at listed
    obtain ⟨entry, position, rfl⟩ := listed
    exact ⟨entry, List.mem_of_getElem? position, position, rfl⟩
  next => cases found

end Inversion

section Operations
variable {table result : Table}

theorem Intact.project (intact : table.Intact) {names : List String} (built : table.project names = .ok result) :
    result.Intact := by
  obtain ⟨entries, rowCount, rfl, sound, fitted⟩ := intact.entries
  obtain ⟨known, distinct, rfl⟩ := project_eq_ok sound built
  exact intact_ofEntries (sound.select known distinct) (fitted.select names)

theorem Intact.gather (intact : table.Intact) {indices : List Nat} (built : table.gather indices = .ok result) :
    result.Intact := by
  obtain ⟨entries, rowCount, rfl, sound, fitted⟩ := intact.entries
  have inside : ∀ entry ∈ entries, ∀ index ∈ indices, index < entry.2.size := fun entry member =>
    (gather_eq_ok built).1 (entry.1.name, entry.2) (List.mem_map.mpr ⟨entry, member, rfl⟩)
  rw [gather_eq_picked inside] at built
  cases built
  refine intact_ofEntries ⟨?_, fun entry member => ?_⟩ (fitted.picked inside)
  · rw [Entries.names_picked]
    exact sound.distinct
  · obtain ⟨source, listed, rfl⟩ := List.mem_map.mp member
    exact Column.size_picked (inside source listed)

theorem Intact.withColumn (intact : table.Intact) {field : Field} {column : Column}
    (built : table.withColumn field column = .ok result) (fits : column.Fits field.dataType) : result.Intact := by
  obtain ⟨entries, rowCount, rfl, sound, fitted⟩ := intact.entries
  obtain ⟨new, sized, rfl⟩ := withColumn_eq_ok built
  exact intact_ofEntries (sound.append new sized) (fitted.append fits)

theorem Intact.withRandomLabel (intact : table.Intact) {name : String} {seed : UInt64}
    (built : table.withRandomLabel name seed = .ok result) : result.Intact := by
  obtain ⟨-, -, built⟩ := bind_eq_ok built
  exact intact.withColumn built (Column.fits_float64 _)

theorem Intact.rowNumber (intact : table.Intact) {partitionBy : List String} {name : String}
    (built : table.rowNumber partitionBy name = .ok result) : result.Intact := by
  obtain ⟨-, -, built⟩ := bind_eq_ok built
  obtain ⟨columns, -, built⟩ := bind_eq_ok built
  exact intact.withColumn built (Column.fits_int64 _)

theorem Intact.groupDraws (intact : table.Intact) {groupBy : List String} {proportion : Double} {name : String}
    {seed : UInt64} (built : table.groupDraws groupBy proportion name seed = .ok result) : result.Intact := by
  obtain ⟨-, -, built⟩ := bind_eq_ok built
  obtain ⟨keys, projected, built⟩ := bind_eq_ok built
  obtain ⟨-, -, built⟩ := bind_eq_ok built
  obtain ⟨groups, -, built⟩ := bind_eq_ok built
  obtain ⟨drawn, gathered, built⟩ := bind_eq_ok built
  exact ((intact.project projected).gather gathered).withColumn built (Column.fits_int64 _)

theorem Intact.groupQuantile (intact : table.Intact) {groupBy : List String} {valueName : String}
    {proportion : Double} {name : String} (built : table.groupQuantile groupBy valueName proportion name = .ok result) :
    result.Intact := by
  obtain ⟨-, -, built⟩ := bind_eq_ok built
  obtain ⟨-, built⟩ := check_eq_ok built
  obtain ⟨values, -, built⟩ := bind_eq_ok built
  obtain ⟨groups, -, built⟩ := bind_eq_ok built
  obtain ⟨projected, projects, built⟩ := bind_eq_ok built
  obtain ⟨keys, gathers, built⟩ := bind_eq_ok built
  obtain ⟨chosen, picks, built⟩ := bind_eq_ok built
  obtain ⟨rfl, inside⟩ := Column.gather_eq_ok picks
  have fits : (values.picked _).Fits values.dataType :=
    (Column.packed_picked inside).fits ((Column.dataType_picked values _).trans values.stored_dataType.symm)
  exact ((intact.project projects).gather gathers).withColumn built fits

theorem Intact.sortLimit (intact : table.Intact) {orderBy : String} {limit : Nat} {names : List String}
    (built : table.sortLimit orderBy limit names = .ok result) : result.Intact := by
  obtain ⟨projected, projects, built⟩ := bind_eq_ok built
  obtain ⟨column, -, built⟩ := bind_eq_ok built
  exact (intact.project projects).gather built

/-- A joined column takes its field's rows on one side, one row for every pair. -/
theorem joinColumn_eq_ok {left right : Table} (leftIntact : left.Intact) (rightIntact : right.Intact)
    {pairs : List (Nat × Nat)} {output : JoinOutput} {joined : Option Field × Column}
    (built : joinColumn left right pairs output = .ok joined) :
    ∃ field, joined.1 = some field ∧ joined.2.Fits field.dataType ∧ joined.2.size = pairs.length := by
  have side : ∀ (source : Table) (index : Nat) (rows : List Nat), source.Intact → rows.length = pairs.length →
      (do
        let column ← source.columnAt index
        return (source.schema.fields[index]?, ← column.gather rows)) = Except.ok joined →
      ∃ field, joined.1 = some field ∧ joined.2.Fits field.dataType ∧ joined.2.size = pairs.length := by
    intro source index rows intact counted taken
    obtain ⟨entries, rowCount, rfl, -, fitted⟩ := intact.entries
    obtain ⟨column, found, taken⟩ := bind_eq_ok taken
    obtain ⟨gathered, gathers, taken⟩ := bind_eq_ok taken
    cases taken
    obtain ⟨entry, member, position, rfl⟩ := columnAt_eq_ok found
    obtain ⟨rfl, inside⟩ := Column.gather_eq_ok gathers
    exact ⟨entry.1, by simp [ofEntries, position], (fitted entry member).picked inside,
      (Column.size_picked inside).trans counted⟩
  cases output with
  | left index => exact side left index _ leftIntact (List.length_map _) built
  | right index => exact side right index _ rightIntact (List.length_map _) built

/-- Columns that all have a field are those of a list of entries. -/
theorem exists_entries {columns : List (Option Field × Column)} (holds : Field → Column → Prop)
    (each : ∀ joined ∈ columns, ∃ field, joined.1 = some field ∧ holds field joined.2) :
    ∃ entries : Entries, columns.filterMap Prod.fst = entries.map Prod.fst ∧
      columns.map Prod.snd = entries.columns ∧ ∀ entry ∈ entries, holds entry.1 entry.2 := by
  induction columns with
  | nil => exact ⟨[], rfl, rfl, by simp⟩
  | cons joined rest ih =>
    obtain ⟨entries, fields, columns, others⟩ := ih fun other member => each other (List.mem_cons_of_mem _ member)
    obtain ⟨field, named, first⟩ := each joined List.mem_cons_self
    refine ⟨(field, joined.2) :: entries, ?_, ?_, ?_⟩
    · rw [List.filterMap_cons_some named, fields, List.map_cons]
    · rw [List.map_cons, columns]
      rfl
    · intro entry member
      rcases List.mem_cons.mp member with rfl | member
      · exact first
      · exact others entry member

theorem Intact.join {left right : Table} (leftIntact : left.Intact) (rightIntact : right.Intact) {on : List String}
    {predicate : Option JoinPredicate} {names : List String}
    (built : left.join right on predicate names = .ok result) : result.Intact := by
  rw [join_eq_pairing] at built
  obtain ⟨-, built⟩ := check_eq_ok built
  obtain ⟨outputs, -, built⟩ := bind_eq_ok built
  obtain ⟨pairs, -, built⟩ := bind_eq_ok built
  obtain ⟨columns, taken, built⟩ := bind_eq_ok built
  obtain ⟨entries, fields, sides, holds⟩ := exists_entries
    (fun field column => column.Fits field.dataType ∧ column.size = pairs.length) fun joined member =>
      let ⟨_, _, made⟩ := (mapM_eq_ok taken).2 joined member
      joinColumn_eq_ok leftIntact rightIntact made
  rw [fields, sides] at built
  obtain ⟨count, sound, rfl⟩ := ofColumns_eq_ok (fun entry member => (holds entry member).2) built
  exact intact_ofEntries sound fun entry member => (holds entry member).1

end Operations

section Rows

/-- A column that has taken some number of cells of its field's type. -/
structure Filled (count : Nat) (entry : Field × Column) : Prop where
  packed : entry.2.Packed
  stored : entry.2.dataType = entry.1.dataType.stored
  size : entry.2.size = count

theorem firstRagged_eq_none {width start : Nat} {rows : List Row} (even : firstRagged width start rows = none) :
    ∀ row ∈ rows, row.length = width := by
  induction rows generalizing start with
  | nil => simp
  | cons first rest ih =>
    rw [firstRagged] at even
    split at even
    next same =>
      intro row member
      rcases List.mem_cons.mp member with rfl | member
      · simpa using same
      · exact ih even row member
    next => cases even

theorem length_heads {rows : List Row} {width : Nat} (even : ∀ row ∈ rows, row.length = width + 1) :
    (rows.filterMap List.head?).length = rows.length := by
  induction rows with
  | nil => rfl
  | cons row rest ih =>
    obtain ⟨cell, others, rfl⟩ := List.exists_cons_of_length_eq_add_one (even row List.mem_cons_self)
    rw [List.filterMap_cons_some List.head?_cons, List.length_cons, List.length_cons,
      ih fun other member => even other (List.mem_cons_of_mem _ member)]

theorem pushColumns_eq_ok {entries : Entries} {rows : List Row} {columns : List (String × Column)} {count : Nat}
    (filled : ∀ entry ∈ entries, Filled count entry) (even : ∀ row ∈ rows, row.length = entries.length)
    (built : pushColumns (entries.map fun entry => (entry.1.name, entry.2)) rows = .ok columns) :
    ∃ pushed : Entries, columns = pushed.map (fun entry => (entry.1.name, entry.2)) ∧
      pushed.map Prod.fst = entries.map Prod.fst ∧ ∀ entry ∈ pushed, Filled (count + rows.length) entry := by
  induction entries generalizing rows columns with
  | nil =>
    cases built
    exact ⟨[], rfl, rfl, by simp⟩
  | cons entry rest ih =>
    obtain ⟨column, first, built⟩ := bind_eq_ok built
    obtain ⟨others, continued, built⟩ := bind_eq_ok built
    cases built
    have tails : ∀ row ∈ rows.map List.tail, row.length = rest.length := by
      intro row member
      obtain ⟨whole, listed, rfl⟩ := List.mem_map.mp member
      simp [even whole listed]
    obtain ⟨pushed, rfl, fields, all⟩ := ih (fun other member => filled other (List.mem_cons_of_mem _ member)) tails continued
    obtain ⟨packed, stored, size⟩ := filled entry List.mem_cons_self
    obtain ⟨packed, sameType, grown⟩ := packed.pushAll first
    rw [size, length_heads even] at grown
    refine ⟨(entry.1, column) :: pushed, rfl, by rw [List.map_cons, fields, List.map_cons], ?_⟩
    intro other member
    rcases List.mem_cons.mp member with rfl | member
    · exact ⟨packed, sameType.trans stored, grown⟩
    · simpa using all other member

theorem empty_eq {schema : Schema} (distinct : schema.names.Nodup) :
    empty schema = ofEntries (schema.fields.map fun field => (field, .empty field.dataType)) 0 := by
  have named : ((schema.fields.map fun field => (field.name, Column.empty field.dataType)).map Prod.fst).Nodup := by
    rw [List.map_map]
    exact distinct
  rw [empty, columnMap_eq named, ofEntries, List.map_map, List.map_map]
  simp [Function.comp_def]

/-- A table of rows is a table of entries that pushing has filled. -/
theorem filled_ofRows {schema : Schema} {rows : List Row} {table : Table} (built : ofRows schema rows = .ok table) :
    ∃ entries : Entries, table = ofEntries entries rows.length ∧ entries.map Prod.fst = schema.fields ∧
      entries.names.Nodup ∧ ∀ entry ∈ entries, Filled rows.length entry := by
  obtain ⟨checked, validated, built⟩ := bind_eq_ok built
  have distinct := Schema.validate_eq_ok validated
  rw [empty_eq distinct] at built
  generalize same : schema.fields.map (fun field => (field, Column.empty field.dataType)) = entries at built
  have fields : entries.map Prod.fst = schema.fields := by
    rw [← same, List.map_map]
    exact List.map_id' _
  have filled : ∀ entry ∈ entries, Filled 0 entry := by
    intro entry member
    rw [← same] at member
    obtain ⟨field, -, rfl⟩ := List.mem_map.mp member
    exact ⟨Column.packed_empty _, Column.dataType_empty _, Column.size_empty _⟩
  unfold pushRows at built
  split at built
  next => cases built
  next even =>
    have wide : ∀ row ∈ rows, row.length = entries.length := by simpa [width, ofEntries] using firstRagged_eq_none even
    obtain ⟨columns, made, built⟩ := bind_eq_ok built
    obtain ⟨pushed, rfl, sameFields, all⟩ := pushColumns_eq_ok filled wide made
    cases built
    rw [Nat.zero_add] at all
    refine ⟨pushed, ?_, sameFields.trans fields, ?_, all⟩
    · simp only [ofEntries, sameFields, Nat.zero_add]
    · have names : pushed.names = schema.names := by
        rw [Entries.names, Schema.names, ← fields, ← sameFields, List.map_map]
        rfl
      exact names ▸ distinct

/-- A table of rows holds what its fields declare, and all of the rows. -/
theorem intact_ofRows {schema : Schema} {rows : List Row} {table : Table} (built : ofRows schema rows = .ok table) :
    table.Intact ∧ table.schema = schema ∧ table.rowCount = rows.length := by
  obtain ⟨entries, rfl, fields, distinct, all⟩ := filled_ofRows built
  refine ⟨intact_ofEntries ⟨distinct, fun entry member => (all entry member).size⟩
    fun entry member => (all entry member).packed.fits (all entry member).stored, congrArg Schema.mk fields, rfl⟩

end Rows

end Table

end StratifiedSampling
