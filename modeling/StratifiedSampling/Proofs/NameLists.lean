import StratifiedSampling.Proofs.OutputColumns

/-! Lists of names in their normal form: trimmed, none of them blank, each once, in the order of first
mention. A list in this form stays as it is, lists one after the other give the names of the first and
what the second adds to them, and strata that are written as a text can be read from it again, unless
a name has the comma that stands between names. -/

namespace StratifiedSampling

theorem Text.trim_of_blanks {blanks : List Char} (blank : ∀ char ∈ blanks, Text.isBlank char = true)
    (text : List Char) : Text.trim (String.ofList (blanks ++ text)) =
      Text.trim (String.ofList text) := by
  have skipped : (blanks ++ text).dropWhile Text.isBlank = text.dropWhile Text.isBlank := by
    rw [List.dropWhile_append_of_pos blank]
  unfold trim trimChars
  rw [String.toList_ofList, String.toList_ofList, skipped]

theorem addNames_singleton (seen : List String) (raw : String) :
    addNames seen [raw] =
      if Text.trim raw = "" ∨ Text.trim raw ∈ seen then seen else seen ++ [Text.trim raw] := by
  rw [addNames, addNames, addNames]

theorem normalizeNames_concat (names : List String) (last : String) :
    normalizeNames (names ++ [last]) = addNames (normalizeNames names) [last] :=
  addNames_append [] names [last]

theorem mem_normalizeNames {names : List String} {name : String} :
    name ∈ normalizeNames names ↔ name ∈ names.map Text.trim ∧ name ≠ "" := by
  rw [normalizeNames_eq, mem_distinctNames, List.mem_map, and_comm]

/-- Names that are added to others follow them, as far as they are new. -/
theorem addNames_eq (seen names : List String) :
    addNames seen names = seen ++ (normalizeNames names).filter fun name => name ∉ seen := by
  induction names using List.reverseRecOn with
  | nil => exact (List.append_nil seen).symm
  | append_singleton names last ih =>
    rw [addNames_append, normalizeNames_concat, ih, addNames_singleton, addNames_singleton]
    by_cases blank : Text.trim last = ""
    · rw [if_pos (.inl blank), if_pos (.inl blank)]
    by_cases earlier : Text.trim last ∈ seen
    · rw [if_pos (.inr (List.mem_append_left _ earlier))]
      split
      · rfl
      · rw [List.filter_append, List.filter_cons_of_neg (by simpa using earlier), List.filter_nil,
          List.append_nil]
    have fresh : decide (Text.trim last ∉ seen) = true := by simpa using earlier
    by_cases again : Text.trim last ∈ normalizeNames names
    · have added : Text.trim last ∈ (normalizeNames names).filter fun name => name ∉ seen :=
        List.mem_filter.mpr ⟨again, fresh⟩
      rw [if_pos (.inr (List.mem_append_right _ added)), if_pos (.inr again)]
    · have unlisted : Text.trim last ∉ seen ++ (normalizeNames names).filter fun name => name ∉ seen := by
        simp [earlier, again]
      have single : [Text.trim last].filter (fun name => name ∉ seen) = [Text.trim last] :=
        List.filter_cons_of_pos fresh
      rw [if_neg (not_or.mpr ⟨blank, unlisted⟩), if_neg (not_or.mpr ⟨blank, again⟩),
        List.filter_append, single, List.append_assoc]

theorem normalizeNames_append (names more : List String) :
    normalizeNames (names ++ more) =
      normalizeNames names ++ (normalizeNames more).filter fun name => name ∉ normalizeNames names := by
  rw [← addNames_eq]
  exact addNames_append [] names more

/-- Names stand in the order in which they are first mentioned. -/
theorem normalizeNames_pairwise (names : List String) :
    (normalizeNames names).Pairwise fun first second =>
      (names.map Text.trim).idxOf first < (names.map Text.trim).idxOf second := by
  induction names using List.reverseRecOn with
  | nil => exact .nil
  | append_singleton names last ih =>
    have listed : ∀ name ∈ normalizeNames names, name ∈ names.map Text.trim :=
      fun name member => (mem_normalizeNames.mp member).1
    rw [List.map_append, List.map_singleton, normalizeNames_concat, addNames_singleton]
    have kept : (normalizeNames names).Pairwise fun first second =>
        (names.map Text.trim ++ [Text.trim last]).idxOf first <
          (names.map Text.trim ++ [Text.trim last]).idxOf second := by
      refine ih.imp_of_mem fun firstMember secondMember before => ?_
      rwa [List.idxOf_append_of_mem (listed _ firstMember), List.idxOf_append_of_mem (listed _ secondMember)]
    split
    · exact kept
    next new =>
      obtain ⟨solid, unseen⟩ := not_or.mp new
      have later : Text.trim last ∉ names.map Text.trim :=
        fun member => unseen (mem_normalizeNames.mpr ⟨member, solid⟩)
      refine List.pairwise_append.mpr ⟨kept, List.pairwise_singleton _ _, fun name member other single => ?_⟩
      rw [List.mem_singleton.mp single, List.idxOf_append_of_mem (listed name member),
        List.idxOf_append_of_notMem later]
      exact Nat.lt_of_lt_of_le (List.idxOf_lt_length_iff.mpr (listed name member)) (Nat.le_add_right _ _)

theorem normalizeNames_of_normal {names : List String}
    (normal : ∀ name ∈ names, Text.trim name = name ∧ name ≠ "") (distinct : names.Nodup) :
    normalizeNames names = names := by
  induction names with
  | nil => rfl
  | cons name rest ih =>
    obtain ⟨new, others⟩ := List.nodup_cons.mp distinct
    obtain ⟨trimmed, solid⟩ := normal name List.mem_cons_self
    have single : normalizeNames [name] = [name] := by
      rw [normalizeNames, addNames_singleton, if_neg (by simp [trimmed, solid]), trimmed]
      rfl
    have kept : rest.filter (fun other => other ∉ [name]) = rest := by
      refine List.filter_eq_self.mpr fun other member => ?_
      have different : other ≠ name := fun same => new (same ▸ member)
      simpa using different
    rw [← List.singleton_append, normalizeNames_append, single,
      ih (fun other member => normal other (List.mem_cons_of_mem _ member)) others, kept]

theorem normalizeNames_normal {names : List String} :
    ∀ name ∈ normalizeNames names, Text.trim name = name ∧ name ≠ "" := by
  intro name member
  obtain ⟨listed, solid⟩ := mem_normalizeNames.mp member
  obtain ⟨raw, -, rfl⟩ := List.mem_map.mp listed
  exact ⟨Text.trim_trim raw, solid⟩

/-- Only the trimmed names count. -/
theorem normalizeNames_congr {names others : List String} (same : names.map Text.trim = others.map Text.trim) :
    normalizeNames names = normalizeNames others := by
  rw [normalizeNames_eq, normalizeNames_eq, distinctNames, distinctNames, same]

section Commas

theorem splitAtCommas_ne_nil (text : List Char) : splitAtCommas text ≠ [] := by
  cases text with
  | nil => exact List.cons_ne_nil _ _
  | cons char rest =>
    unfold splitAtCommas
    split
    · exact List.cons_ne_nil _ _
    · split <;> exact List.cons_ne_nil _ _

theorem splitAtCommas_comma (text : List Char) : splitAtCommas (',' :: text) = [] :: splitAtCommas text := by
  obtain ⟨piece, pieces, same⟩ := List.exists_cons_of_ne_nil (splitAtCommas_ne_nil text)
  rw [splitAtCommas, same]
  rfl

/-- Before the first comma all characters go into one piece. -/
theorem splitAtCommas_append {piece : List Char} (plain : ',' ∉ piece) {text first : List Char}
    {pieces : List (List Char)} (split : splitAtCommas text = first :: pieces) :
    splitAtCommas (piece ++ text) = (piece ++ first) :: pieces := by
  induction piece with
  | nil => exact split
  | cons char rest ih =>
    have other : char ≠ ',' := fun same => plain (same ▸ List.mem_cons_self)
    rw [List.cons_append, splitAtCommas, ih fun member => plain (List.mem_cons_of_mem _ member)]
    exact if_neg other

theorem splitAtCommas_plain {piece : List Char} (plain : ',' ∉ piece) : splitAtCommas piece = [piece] := by
  have whole : splitAtCommas (piece ++ []) = [piece ++ []] := splitAtCommas_append plain rfl
  rwa [List.append_nil] at whole

theorem splitAtCommas_piece {piece : List Char} (plain : ',' ∉ piece) (text : List Char) :
    splitAtCommas (piece ++ ',' :: text) = piece :: splitAtCommas text := by
  rw [splitAtCommas_append plain (splitAtCommas_comma text), List.append_nil]

end Commas

/-- Names that are written one after the other are the pieces between the commas, but for blanks. -/
theorem trim_pieces {blanks : List Char} (spaces : ∀ char ∈ blanks, char = ' ') (name : String) (rest : List String)
    (normal : ∀ other ∈ name :: rest, Text.trim other = other ∧ ',' ∉ other.toList) :
    (splitAtCommas (blanks ++ (String.intercalate ", " (name :: rest)).toList)).map (Text.trim ∘ String.ofList) =
      name :: rest := by
  obtain ⟨trimmed, plain⟩ := normal name List.mem_cons_self
  have start : ',' ∉ blanks ++ name.toList := by
    intro comma
    rcases List.mem_append.mp comma with inside | inside
    · exact absurd (spaces ',' inside) (by decide)
    · exact plain inside
  have back : Text.trim (String.ofList (blanks ++ name.toList)) = name := by
    have blank : ∀ char ∈ blanks, Text.isBlank char = true := fun char member => spaces char member ▸ by decide
    rw [Text.trim_of_blanks blank, String.ofList_toList, trimmed]
  cases rest with
  | nil =>
    rw [String.intercalate_singleton, splitAtCommas_plain start, List.map_singleton, Function.comp_apply, back]
  | cons next rest =>
    have written : blanks ++ (String.intercalate ", " (name :: next :: rest)).toList =
        (blanks ++ name.toList) ++ ',' :: ([' '] ++ (String.intercalate ", " (next :: rest)).toList) := by
      simp
    have space : ∀ char ∈ [' '], char = ' ' := fun _ => List.mem_singleton.mp
    have others := trim_pieces space next rest fun other member => normal other (List.mem_cons_of_mem _ member)
    rw [written, splitAtCommas_piece start, List.map_cons, Function.comp_apply, back, others]

/-- A text of names gives them back. -/
theorem splitColumnList_intercalate {names : List String} (filled : names ≠ [])
    (normal : ∀ name ∈ names, Text.trim name = name ∧ name ≠ "") (distinct : names.Nodup)
    (plain : ∀ name ∈ names, ',' ∉ name.toList) : splitColumnList (String.intercalate ", " names) = names := by
  obtain ⟨name, rest, rfl⟩ := List.exists_cons_of_ne_nil filled
  have none : ∀ char ∈ ([] : List Char), char = ' ' := fun _ => nofun
  have pieces := trim_pieces none name rest fun other member => ⟨(normal other member).1, plain other member⟩
  rw [List.nil_append] at pieces
  have trimmed : (name :: rest).map Text.trim = name :: rest :=
    (List.map_congr_left fun other member => (normal other member).1).trans (List.map_id _)
  calc splitColumnList (String.intercalate ", " (name :: rest))
      = normalizeNames (name :: rest) := by
        refine normalizeNames_congr ?_
        rw [List.map_map, pieces, trimmed]
    _ = name :: rest := normalizeNames_of_normal normal distinct

namespace Strata

theorem resolve_eq_global_iff (names : List String) :
    resolve names = .global ↔ ∀ raw ∈ names, Text.trim raw = "" := by
  have unnamed : resolve names = .global ↔ normalizeNames names = [] := by
    unfold resolve
    split
    next none => exact ⟨fun _ => none, fun _ => rfl⟩
    next some => exact ⟨fun same => (by cases same), fun none => absurd none some⟩
  rw [unnamed, List.eq_nil_iff_forall_not_mem]
  constructor
  · intro none raw member
    by_contra solid
    exact none _ (mem_normalizeNames.mpr ⟨List.mem_map_of_mem member, solid⟩)
  · intro blank name member
    obtain ⟨listed, solid⟩ := mem_normalizeNames.mp member
    obtain ⟨raw, mentioned, rfl⟩ := List.mem_map.mp listed
    exact solid (blank raw mentioned)

theorem resolve_columns_resolve (names : List String) : resolve (resolve names).columns = resolve names := by
  rw [resolve_columns, resolve, normalizeNames_of_normal normalizeNames_normal (normalizeNames_nodup names)]
  rfl

theorem display_resolve {names : List String} (named : (resolve names).columns ≠ []) :
    (resolve names).display = String.intercalate ", " (resolve names).columns := by
  cases resolved : resolve names with
  | global =>
    rw [resolved] at named
    exact absurd rfl named
  | keys columns => rfl

end Strata

/-- Strata have their columns in a normal form: trimmed, none of them blank, each once, in the order of first
mention, and all that are mentioned; without any, all rows are one stratum. Columns that are resolved again
stay as they are, and of two lists the second adds the columns that the first does not have. Columns
without a comma are read back from the text of the strata. -/
theorem resolve_is_canonical (names : List String) :
    let columns := (Strata.resolve names).columns
    let trimmed := names.map Text.trim
    (∀ name ∈ columns, Text.trim name = name ∧ name ≠ "") ∧ columns.Nodup ∧
      columns.Pairwise (fun first second => trimmed.idxOf first < trimmed.idxOf second) ∧
      (∀ name, name ∈ columns ↔ name ∈ trimmed ∧ name ≠ "") ∧
      (Strata.resolve names = .global ↔ ∀ raw ∈ names, Text.trim raw = "") ∧
      Strata.resolve columns = Strata.resolve names ∧
      (∀ more, (Strata.resolve (names ++ more)).columns =
        columns ++ (Strata.resolve more).columns.filter fun name => name ∉ columns) ∧
      (columns ≠ [] → (∀ name ∈ columns, ',' ∉ name.toList) →
        splitColumnList (Strata.resolve names).display = columns) := by
  intro columns trimmed
  have same : columns = normalizeNames names := Strata.resolve_columns names
  have normal : ∀ name ∈ columns, Text.trim name = name ∧ name ≠ "" := same ▸ normalizeNames_normal
  have distinct : columns.Nodup := same ▸ normalizeNames_nodup names
  refine ⟨normal, distinct, same ▸ normalizeNames_pairwise names, fun name => same ▸ mem_normalizeNames,
    Strata.resolve_eq_global_iff names, Strata.resolve_columns_resolve names, fun more => ?_, fun filled plain => ?_⟩
  · rw [Strata.resolve_columns, Strata.resolve_columns, same]
    exact normalizeNames_append names more
  · rw [Strata.display_resolve filled]
    exact splitColumnList_intercalate filled normal distinct plain

/-- Blanks of all kinds around names go, also where the names are read back. -/
theorem region_and_tier_resolved :
    let strata := Strata.resolve [" region", "tier\u3000", "", "region", "\u00a0"]
    strata.columns ≠ [] ∧ (∀ name ∈ strata.columns, ',' ∉ name.toList) ∧
      splitColumnList strata.display = ["region", "tier"] := by
  intro strata
  have columns : strata.columns = ["region", "tier"] := by decide
  obtain ⟨-, -, -, -, -, -, -, back⟩ := resolve_is_canonical [" region", "tier\u3000", "", "region", "\u00a0"]
  have filled : strata.columns ≠ [] := by
    rw [columns]
    decide
  have plain : ∀ name ∈ strata.columns, ',' ∉ name.toList := by
    rw [columns]
    decide
  exact ⟨filled, plain, (back filled plain).trans columns⟩

end StratifiedSampling
