import StratifiedSampling.Proofs.ColumnCells
import StratifiedSampling.Table

/-! Tables as lists of entries, each a field with its column. For tables that are well
formed every operation on tables is an operation on such lists. -/

namespace StratifiedSampling

abbrev Entries := List (Field × Column)

namespace Entries

def names (entries : Entries) : List String :=
  entries.map fun entry => entry.1.name

def columns (entries : Entries) : List Column :=
  entries.map Prod.snd

def lookup? (entries : Entries) (name : String) : Option (Field × Column) :=
  entries.find? fun entry => entry.1.name == name

def select (entries : Entries) (names : List String) : Entries :=
  names.filterMap entries.lookup?

def picked (entries : Entries) (indices : List Nat) : Entries :=
  entries.map fun entry => (entry.1, entry.2.picked indices)

/-- Names occur once, and all columns have the same length. -/
structure Sound (entries : Entries) (rowCount : Nat) : Prop where
  distinct : entries.names.Nodup
  even : ∀ entry ∈ entries, entry.2.size = rowCount

theorem lookup?_of_mem_names {entries : Entries} {name : String} (listed : name ∈ entries.names) :
    ∃ entry, entries.lookup? name = some entry := by
  obtain ⟨entry, member, same⟩ := List.mem_map.mp listed
  cases found : entries.lookup? name with
  | none => exact absurd same (by simpa using List.find?_eq_none.mp found entry member)
  | some entry => exact ⟨entry, rfl⟩

theorem lookup?_eq_none {entries : Entries} {name : String} (unlisted : name ∉ entries.names) :
    entries.lookup? name = none := by
  refine List.find?_eq_none.mpr fun entry member same => unlisted ?_
  exact List.mem_map.mpr ⟨entry, member, by simpa using same⟩

theorem mem_of_lookup? {entries : Entries} {name : String} {entry : Field × Column}
    (found : entries.lookup? name = some entry) : entry ∈ entries ∧ entry.1.name = name :=
  ⟨List.mem_of_find?_eq_some found, by simpa using List.find?_some found⟩

theorem names_select {entries : Entries} {names : List String} (known : ∀ name ∈ names, name ∈ entries.names) :
    (entries.select names).names = names := by
  induction names with
  | nil => rfl
  | cons name rest ih =>
    obtain ⟨entry, found⟩ := lookup?_of_mem_names (known name List.mem_cons_self)
    have others := ih fun other member => known other (List.mem_cons_of_mem _ member)
    simp only [select, Entries.names] at others ⊢
    rw [List.filterMap_cons_some found, List.map_cons, others, (mem_of_lookup? found).2]

theorem mem_of_mem_select {entries : Entries} {names : List String} {entry : Field × Column}
    (member : entry ∈ entries.select names) : entry ∈ entries := by
  obtain ⟨name, -, found⟩ := List.mem_filterMap.mp member
  exact (mem_of_lookup? found).1

theorem sound_select {entries : Entries} {rowCount : Nat} (even : ∀ entry ∈ entries, entry.2.size = rowCount)
    {names : List String} (known : ∀ name ∈ names, name ∈ entries.names) (distinct : names.Nodup) :
    (entries.select names).Sound rowCount where
  distinct := by rwa [names_select known]
  even entry member := even entry (mem_of_mem_select member)

theorem Sound.select {entries : Entries} {rowCount : Nat} (sound : entries.Sound rowCount) {names : List String}
    (known : ∀ name ∈ names, name ∈ entries.names) (distinct : names.Nodup) : (entries.select names).Sound rowCount :=
  sound_select sound.even known distinct

theorem lookup?_picked (entries : Entries) (indices : List Nat) (name : String) :
    (entries.picked indices).lookup? name =
      (entries.lookup? name).map fun entry => (entry.1, entry.2.picked indices) := by
  rw [lookup?, picked, List.find?_map]
  rfl

theorem select_picked (entries : Entries) (indices : List Nat) (names : List String) :
    (entries.picked indices).select names = (entries.select names).picked indices := by
  induction names with
  | nil => rfl
  | cons name rest ih =>
    simp only [select] at ih ⊢
    rw [List.filterMap_cons, List.filterMap_cons, lookup?_picked, ih]
    cases entries.lookup? name <;> rfl

theorem names_picked (entries : Entries) (indices : List Nat) : (entries.picked indices).names = entries.names := by
  simp [picked, names]

theorem Sound.inside {entries : Entries} {rowCount : Nat} (sound : entries.Sound rowCount) {entry : Field × Column}
    (member : entry ∈ entries) {indices : List Nat} (inside : ∀ index ∈ indices, index < rowCount) :
    ∀ index ∈ indices, index < entry.2.size := by
  rw [sound.even entry member]
  exact inside

theorem Sound.value_picked {entries : Entries} {rowCount : Nat} (sound : entries.Sound rowCount)
    {entry : Field × Column} (member : entry ∈ entries) {indices : List Nat}
    (inside : ∀ index ∈ indices, index < rowCount) {position row : Nat} (listed : indices[position]? = some row) :
    (entry.2.picked indices).value position = entry.2.value row :=
  Column.value_picked (sound.inside member inside) listed

theorem Sound.picked {entries : Entries} {rowCount : Nat} (sound : entries.Sound rowCount) {indices : List Nat}
    (inside : ∀ index ∈ indices, index < rowCount) : (entries.picked indices).Sound indices.length where
  distinct := by rw [names_picked]; exact sound.distinct
  even := by
    intro entry member
    obtain ⟨source, listed, rfl⟩ := List.mem_map.mp member
    exact Column.size_picked (sound.inside listed inside)

theorem Sound.append {entries : Entries} {rowCount : Nat} (sound : entries.Sound rowCount) {field : Field}
    {column : Column} (new : field.name ∉ entries.names) (sized : column.size = rowCount) :
    Sound (entries ++ [(field, column)]) rowCount where
  distinct := by
    simp only [names, List.map_append, List.map_cons, List.map_nil]
    refine List.nodup_append.mpr ⟨sound.distinct, by simp, ?_⟩
    rintro name member other last rfl
    exact new (List.mem_singleton.mp last ▸ member)
  even := by
    intro entry member
    rcases List.mem_append.mp member with member | member
    · exact sound.even entry member
    · rw [List.mem_singleton.mp member, sized]

theorem mem_names_append {entries : Entries} {name : String} (member : name ∈ entries.names) (more : Entries) :
    name ∈ names (entries ++ more) := by
  rw [names, List.map_append]
  exact List.mem_append_left _ member

theorem lookup?_append (entries more : Entries) (name : String) :
    lookup? (entries ++ more) name = (entries.lookup? name).or (more.lookup? name) :=
  List.find?_append

theorem lookup?_append_new {entries : Entries} {field : Field} {column : Column} (new : field.name ∉ entries.names) :
    lookup? (entries ++ [(field, column)]) field.name = some (field, column) := by
  rw [lookup?_append, lookup?_eq_none new, Option.none_or]
  simp [lookup?]

theorem lookup?_append_of_mem {entries : Entries} {name : String} (listed : name ∈ entries.names)
    (more : Entries) : lookup? (entries ++ more) name = entries.lookup? name := by
  obtain ⟨entry, found⟩ := lookup?_of_mem_names listed
  rw [lookup?_append, found, Option.some_or]

theorem select_append_of_mem {entries : Entries} {names : List String} (known : ∀ name ∈ names, name ∈ entries.names)
    (more : Entries) : select (entries ++ more) names = entries.select names := by
  induction names with
  | nil => rfl
  | cons name rest ih =>
    have others := ih fun other member => known other (List.mem_cons_of_mem _ member)
    unfold select at others ⊢
    rw [List.filterMap_cons, List.filterMap_cons, lookup?_append_of_mem (known name List.mem_cons_self), others]

theorem lookup?_of_mem {entries : Entries} (distinct : entries.names.Nodup) {entry : Field × Column}
    (member : entry ∈ entries) : entries.lookup? entry.1.name = some entry := by
  induction entries with
  | nil => cases member
  | cons first rest ih =>
    obtain ⟨new, others⟩ := List.nodup_cons.mp distinct
    rcases List.mem_cons.mp member with rfl | member
    · exact List.find?_cons_of_pos (by simp)
    · have different : first.1.name ≠ entry.1.name := fun same =>
        new (List.mem_map.mpr ⟨entry, member, same.symm⟩)
      rw [lookup?, List.find?_cons_of_neg (by simpa using different)]
      exact ih others member

theorem select_names {entries : Entries} (distinct : entries.names.Nodup) : entries.select entries.names = entries := by
  have each : ∀ some_ : Entries, (∀ entry ∈ some_, entry ∈ entries) → entries.select some_.names = some_ := by
    intro some_ inside
    induction some_ with
    | nil => rfl
    | cons first rest ih =>
      have others := ih fun entry member => inside entry (List.mem_cons_of_mem _ member)
      simp only [select, names] at others ⊢
      rw [List.map_cons, List.filterMap_cons_some (lookup?_of_mem distinct (inside first List.mem_cons_self)), others]
  exact each entries fun _ member => member

/-- The keys of a table of picked keys with one more column. -/
theorem select_keys {entries : Entries} {keys : List String} (known : ∀ name ∈ keys, name ∈ entries.names)
    (distinct : keys.Nodup) (indices : List Nat) (more : Entries) :
    select ((entries.select keys).picked indices ++ more) keys = (entries.select keys).picked indices := by
  have names : ((entries.select keys).picked indices).names = keys := by rw [names_picked, names_select known]
  have listed : ∀ name ∈ keys, name ∈ ((entries.select keys).picked indices).names := by
    rw [names]
    exact fun _ member => member
  rw [select_append_of_mem listed]
  have unique : ((entries.select keys).picked indices).names.Nodup := by rwa [names]
  have whole := select_names unique
  rwa [names] at whole

end Entries

namespace Table

def ofEntries (entries : Entries) (rowCount : Nat) : Table :=
  ⟨⟨entries.map Prod.fst⟩, entries.map fun entry => (entry.1.name, entry.2), rowCount⟩

/-- Column names are those of the schema and occur once, and every column is as long as the table. -/
structure WellFormed (table : Table) : Prop where
  named : table.columns.map Prod.fst = table.schema.names
  distinct : table.schema.names.Nodup
  even : ∀ entry ∈ table.columns, entry.2.size = table.rowCount

theorem WellFormed.entries {table : Table} (formed : table.WellFormed) :
    ∃ entries : Entries, entries.Sound table.rowCount ∧ table = ofEntries entries table.rowCount := by
  obtain ⟨⟨fields⟩, columns, rowCount⟩ := table
  obtain ⟨named, distinct, even⟩ := formed
  simp only [Schema.names] at named distinct even
  have lengths : fields.length = (columns.map Prod.snd).length := by
    simpa using (congrArg List.length named).symm
  have fieldsSame : (fields.zip (columns.map Prod.snd)).map Prod.fst = fields :=
    List.map_fst_zip (by omega)
  have columnsSame : (fields.zip (columns.map Prod.snd)).map Prod.snd = columns.map Prod.snd :=
    List.map_snd_zip (by omega)
  refine ⟨fields.zip (columns.map Prod.snd), ⟨?_, ?_⟩, ?_⟩
  · have names : (fields.zip (columns.map Prod.snd)).map (fun entry => entry.1.name) = fields.map Field.name := by
      rw [← fieldsSame, List.map_map]
      simp [fieldsSame]
    rw [Entries.names, names]
    exact distinct
  · intro entry member
    obtain ⟨source, listed, same⟩ := List.mem_map.mp (List.of_mem_zip member).2
    rw [← same]
    exact even source listed
  · have whole : (fields.zip (columns.map Prod.snd)).map (fun entry => (entry.1.name, entry.2)) = columns := by
      calc (fields.zip (columns.map Prod.snd)).map (fun entry => (entry.1.name, entry.2))
          = (fields.map Field.name).zip (columns.map Prod.snd) := List.zip_map_left.symm
        _ = columns := by rw [← named, List.zip_map', List.map_id']
    rw [ofEntries, fieldsSame, whole]

theorem WellFormed.exists_entries {table : Table} (formed : table.WellFormed) :
    ∃ (entries : Entries) (rowCount : Nat), table = ofEntries entries rowCount ∧ entries.Sound rowCount := by
  obtain ⟨entries, sound, same⟩ := formed.entries
  exact ⟨entries, table.rowCount, same, sound⟩

section Operations
variable {entries : Entries} {rowCount : Nat}

theorem names_ofEntries (entries : Entries) (rowCount : Nat) :
    (ofEntries entries rowCount).schema.names = entries.names := by
  simp [ofEntries, Schema.names, Entries.names]

theorem wellFormed_ofEntries (sound : entries.Sound rowCount) : (ofEntries entries rowCount).WellFormed where
  named := by simp [ofEntries, Schema.names]
  distinct := by
    rw [names_ofEntries]
    exact sound.distinct
  even := by
    intro entry member
    obtain ⟨source, listed, rfl⟩ := List.mem_map.mp member
    exact sound.even source listed

theorem index?_of_lookup? (rowCount : Nat) {name : String} {entry : Field × Column}
    (found : entries.lookup? name = some entry) :
    ∃ index, (ofEntries entries rowCount).schema.index? name = some index ∧ entries[index]? = some entry := by
  have bound : (entries.findIdx? fun entry => entry.1.name == name).bind (entries[·]?) = some entry := by
    rw [← List.find?_eq_bind_findIdx?_getElem?]
    exact found
  obtain ⟨index, position, listed⟩ := Option.bind_eq_some_iff.mp bound
  refine ⟨index, ?_, listed⟩
  simpa [ofEntries, Schema.index?, List.findIdx?_map, Function.comp_def] using position

theorem index?_eq_none {name : String} (unlisted : name ∉ entries.names) :
    (ofEntries entries rowCount).schema.index? name = none := by
  simp only [ofEntries, Schema.index?, List.findIdx?_map, List.findIdx?_eq_none_iff, Function.comp_apply]
  intro entry member
  rw [beq_eq_false_iff_ne]
  exact fun same => unlisted (List.mem_map.mpr ⟨entry, member, same⟩)

theorem columnAt_of_getElem? {index : Nat} {entry : Field × Column} (listed : entries[index]? = some entry) :
    (ofEntries entries rowCount).columnAt? index = some entry.2 := by
  simp [columnAt?, ofEntries, listed]

theorem resolveColumn_eq {name : String} {entry : Field × Column} (found : entries.lookup? name = some entry) :
    (ofEntries entries rowCount).resolveColumn name = .ok entry.2 := by
  obtain ⟨index, position, listed⟩ := index?_of_lookup? rowCount found
  rw [resolveColumn, position]
  simp only [columnAt, columnAt_of_getElem? listed]

theorem resolve_eq (rowCount : Nat) {names : List String} (known : ∀ name ∈ names, name ∈ entries.names) :
    ∃ indices, (ofEntries entries rowCount).schema.resolve names = .ok indices ∧
      indices.map (entries[·]?) = (entries.select names).map some := by
  have found : ∀ name ∈ names, ∃ entry, entries.lookup? name = some entry := fun name member =>
    Entries.lookup?_of_mem_names (known name member)
  have complete : (ofEntries entries rowCount).schema.missing names = [] := by
    refine List.filter_eq_nil_iff.mpr fun name member => ?_
    obtain ⟨entry, entryFound⟩ := found name member
    obtain ⟨index, position, -⟩ := index?_of_lookup? rowCount entryFound
    simp [Schema.contains, position]
  refine ⟨names.filterMap (ofEntries entries rowCount).schema.index?, by rw [Schema.resolve, complete], ?_⟩
  clear complete known
  induction names with
  | nil => rfl
  | cons name rest ih =>
    obtain ⟨entry, entryFound⟩ := found name List.mem_cons_self
    obtain ⟨index, position, listed⟩ := index?_of_lookup? rowCount entryFound
    have others := ih fun other member => found other (List.mem_cons_of_mem _ member)
    unfold Entries.select at others ⊢
    rw [List.filterMap_cons_some position, List.filterMap_cons_some entryFound, List.map_cons, List.map_cons,
      listed, others]

theorem resolveColumns_eq {names : List String} (known : ∀ name ∈ names, name ∈ entries.names) :
    (ofEntries entries rowCount).resolveColumns names = .ok (entries.select names).columns := by
  obtain ⟨indices, resolved, listed⟩ := resolve_eq rowCount known
  unfold resolveColumns
  rw [resolved]
  refine mapM_of_map_some (fun index entry found => ?_) listed
  simp only [columnAt, columnAt_of_getElem? found]

theorem firstUneven_eq_none {expected : Nat} (even : ∀ entry ∈ entries, entry.2.size = expected) :
    firstUneven expected (entries.map Prod.fst) (entries.map Prod.snd) = none := by
  induction entries with
  | nil => rfl
  | cons entry rest ih =>
    rw [List.map_cons, List.map_cons, firstUneven, even entry List.mem_cons_self, beq_self_eq_true, if_pos rfl]
    exact ih fun other member => even other (List.mem_cons_of_mem _ member)

theorem firstRepeated_eq_none {seen names : List String} (distinct : names.Nodup) (apart : ∀ name ∈ names, name ∉ seen) :
    Schema.firstRepeated seen names = none := by
  induction names generalizing seen with
  | nil => rfl
  | cons name rest ih =>
    obtain ⟨new, others⟩ := List.nodup_cons.mp distinct
    rw [Schema.firstRepeated, if_neg (by simpa using apart name List.mem_cons_self)]
    refine ih others fun other member listed => ?_
    rcases List.mem_cons.mp listed with rfl | listed
    · exact new member
    · exact apart other (List.mem_cons_of_mem _ member) listed

theorem columnMap_eq {columns : List (String × Column)} (distinct : (columns.map Prod.fst).Nodup) :
    columnMap columns = columns := by
  have run : ∀ rest done : List (String × Column), ((done ++ rest).map Prod.fst).Nodup →
      rest.foldl (fun columns entry => insertColumn columns entry.1 entry.2) done = done ++ rest := by
    intro rest
    induction rest with
    | nil => simp
    | cons entry rest ih =>
      intro done distinct
      have new : (done.any fun other => other.1 == entry.1) = false := by
        simp only [List.map_append, List.map_cons, List.nodup_append, List.mem_cons] at distinct
        simp only [List.any_eq_false, beq_iff_eq]
        intro other member
        exact distinct.2.2 _ (List.mem_map_of_mem member) _ (.inl rfl)
      have inserted : insertColumn done entry.1 entry.2 = done ++ [entry] := by
        rw [insertColumn, new]
        rfl
      rw [List.foldl_cons, inserted, ih (done ++ [entry]) (by simpa using distinct), List.append_assoc]
      rfl
  exact run columns [] (by simpa using distinct)

theorem ofColumns_eq (sound : entries.Sound rowCount) :
    ofColumns ⟨entries.map Prod.fst⟩ entries.columns =
      .ok (ofEntries entries ((entries.head?.map fun entry => entry.2.size).getD 0)) := by
  have validated : Schema.validate ⟨entries.map Prod.fst⟩ = .ok () := by
    have unique : Schema.firstRepeated [] ((entries.map Prod.fst).map Field.name) = none := by
      rw [List.map_map]
      exact firstRepeated_eq_none sound.distinct fun _ _ => List.not_mem_nil
    rw [Schema.validate, Schema.names, unique]
  have counted : Schema.size ⟨entries.map Prod.fst⟩ = entries.columns.length := by simp [Schema.size, Entries.columns]
  have first : entries.columns.head?.map Column.size = entries.head?.map fun entry => entry.2.size := by
    simp [Entries.columns, Function.comp_def]
  have level : ∀ entry ∈ entries, entry.2.size = (entries.head?.map fun entry => entry.2.size).getD 0 := by
    intro entry member
    cases entries with
    | nil => cases member
    | cons head rest => simp [sound.even head List.mem_cons_self, sound.even entry member]
  have named : (entries.map Prod.fst).map Field.name = entries.map fun entry => entry.1.name := by simp
  have paired : ((entries.map Prod.fst).map Field.name).zip entries.columns =
      entries.map fun entry => (entry.1.name, entry.2) := by
    rw [named, Entries.columns, List.zip_map']
  have mapped : columnMap (entries.map fun entry => (entry.1.name, entry.2)) =
      entries.map fun entry => (entry.1.name, entry.2) := by
    apply columnMap_eq
    rw [List.map_map]
    exact sound.distinct
  unfold ofColumns
  rw [validated]
  simp only [bind, Except.bind, counted, ne_eq, not_true_eq_false, if_false, first]
  rw [Entries.columns, firstUneven_eq_none level]
  simp only [Schema.names, pure, Except.pure]
  rw [← Entries.columns, paired, mapped]
  rfl

theorem ofColumns_filled (sound : entries.Sound rowCount) (filled : entries ≠ []) :
    ofColumns ⟨entries.map Prod.fst⟩ entries.columns = .ok (ofEntries entries rowCount) := by
  rw [ofColumns_eq sound]
  cases entries with
  | nil => exact absurd rfl filled
  | cons first rest => rw [List.head?_cons, Option.map_some, Option.getD_some, sound.even first List.mem_cons_self]

theorem project_eq (sound : entries.Sound rowCount) {names : List String}
    (known : ∀ name ∈ names, name ∈ entries.names) (distinct : names.Nodup) :
    (ofEntries entries rowCount).project names = .ok (ofEntries (entries.select names) rowCount) := by
  obtain ⟨indices, resolved, listed⟩ := resolve_eq rowCount known
  have fields : indices.filterMap (fun index => (ofEntries entries rowCount).schema.fields[index]?) =
      (entries.select names).map Prod.fst :=
    filterMap_of_map_some (fun index entry found => by simp [ofEntries, found]) listed
  have columns : indices.filterMap (ofEntries entries rowCount).columnAt? = (entries.select names).columns :=
    filterMap_of_map_some (fun index entry found => columnAt_of_getElem? found) listed
  unfold project
  rw [resolved]
  simp only [bind, Except.bind]
  rw [fields, columns, ofColumns_eq (sound.select known distinct)]
  rfl

/-- Gathering takes the same rows of every column. -/
theorem gather_eq_map {table : Table} {indices : List Nat}
    (inside : ∀ entry ∈ table.columns, ∀ index ∈ indices, index < entry.2.size) :
    table.gather indices = .ok { table with
      columns := table.columns.map fun entry => (entry.1, entry.2.picked indices)
      rowCount := indices.length } := by
  have columns : table.columns.mapM (fun entry => do
      return (entry.1, ← entry.2.gather indices) : String × Column → Except Error (String × Column)) =
      .ok (table.columns.map fun entry => (entry.1, entry.2.picked indices)) := by
    refine mapM_eq_map fun entry member => ?_
    rw [Column.gather_eq (inside entry member)]
    rfl
  unfold gather
  rw [columns]
  rfl

theorem gather_eq_picked {indices : List Nat} (inside : ∀ entry ∈ entries, ∀ index ∈ indices, index < entry.2.size) :
    (ofEntries entries rowCount).gather indices = .ok (ofEntries (entries.picked indices) indices.length) := by
  rw [gather_eq_map]
  · simp [ofEntries, Entries.picked, Function.comp_def]
  · intro entry member
    obtain ⟨source, listed, rfl⟩ := List.mem_map.mp member
    exact inside source listed

theorem gather_eq (sound : entries.Sound rowCount) {indices : List Nat} (inside : ∀ index ∈ indices, index < rowCount) :
    (ofEntries entries rowCount).gather indices = .ok (ofEntries (entries.picked indices) indices.length) := by
  apply gather_eq_picked
  intro entry member
  exact sound.inside member inside

theorem withColumn_eq (entries : Entries) (field : Field) {column : Column} (new : field.name ∉ entries.names)
    (sized : column.size = rowCount) :
    (ofEntries entries rowCount).withColumn field column = .ok (ofEntries (entries ++ [(field, column)]) rowCount) := by
  have absent : (ofEntries entries rowCount).schema.contains field.name = false := by
    rw [Schema.contains, index?_eq_none new]
    rfl
  have inserted : insertColumn (ofEntries entries rowCount).columns field.name column =
      (ofEntries entries rowCount).columns ++ [(field.name, column)] := by
    rw [insertColumn, if_neg]
    intro taken
    obtain ⟨entry, member, same⟩ := List.any_eq_true.mp taken
    obtain ⟨source, listed, rfl⟩ := List.mem_map.mp member
    exact new (List.mem_map.mpr ⟨source, listed, by simpa using same⟩)
  unfold withColumn
  rw [absent, inserted]
  simp [ofEntries, sized, Schema.add, pure, Except.pure]

theorem checkNewColumn_eq {name : String} (new : name ∉ entries.names) :
    (ofEntries entries rowCount).checkNewColumn name = .ok () := by
  rw [checkNewColumn, Schema.contains, index?_eq_none new]
  rfl

end Operations

end Table

end StratifiedSampling
