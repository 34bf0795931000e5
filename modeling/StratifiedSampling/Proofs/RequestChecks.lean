import Mathlib.Data.List.Induction
import StratifiedSampling.Proofs.ProportionOrder
import StratifiedSampling.Proofs.RowGroups
import StratifiedSampling.Proofs.Validation

/-! What is asked of a request, and what is said of one that falls short. The requirements are
checked in a fixed order; the first that is unmet decides the error, whatever else is at fault. -/

namespace StratifiedSampling

theorem RelationName.text_inj {name other : RelationName} : name.text = other.text ↔ name = other := by
  cases name
  cases other
  rw [mk.injEq]

namespace Catalog

/-- The table that a catalog has under a text. -/
def under (catalog : Catalog) (text : String) : Option Table :=
  (catalog.relations.find? fun entry => entry.1.text == text).map Prod.snd

theorem table?_eq_under (catalog : Catalog) (name : RelationName) : catalog.table? name = catalog.under name.text := by
  unfold table? under
  congr 2
  funext entry
  rw [Bool.eq_iff_iff, beq_iff_eq, beq_iff_eq, RelationName.text_inj]

theorem contains_eq_under (catalog : Catalog) (name : RelationName) :
    catalog.contains name = (catalog.under name.text).isSome := by
  rw [← table?_eq_under, Bool.eq_iff_iff, Option.isSome_iff_exists]
  exact ⟨table?_of_contains, fun ⟨_, found⟩ => contains_of_table? found⟩

end Catalog

namespace SampleRequest

/-- The columns of the source; none if there is no such relation. -/
def sourceColumns (request : SampleRequest) (catalog : Catalog) : List String :=
  ((catalog.under (Text.trim request.source)).map fun table => table.schema.names).getD []

/-- The keys and then the targets that a request comes to on some columns. -/
def mentioned (request : SampleRequest) (columns : List String) : List String :=
  let strata := Strata.resolve (request.keys.getD [])
  strata.columns ++ resolveTargets columns strata (request.targets.getD [])

/-- What a request mentions and is not among some columns, each name once and in the order of first mention. -/
def unknownColumns (request : SampleRequest) (columns : List String) : List String :=
  ((request.mentioned columns).filter fun name => !columns.contains name).eraseDups

end SampleRequest

theorem missingColumns_eq (columns names : List String) :
    SampleRequest.missingColumns columns names = (names.filter fun name => !columns.contains name).eraseDups := by
  induction names using List.reverseRecOn with
  | nil => rfl
  | append_singleton names last ih =>
    unfold SampleRequest.missingColumns at ih ⊢
    rw [List.foldl_append, ih, List.foldl_cons, List.foldl_nil, List.filter_append, List.filter_cons, List.filter_nil]
    cases known : columns.contains last with
    | true => rw [Bool.true_or, if_pos rfl, Bool.not_true, if_neg Bool.false_ne_true, List.append_nil]
    | false =>
      have listed : (names.filter fun name => !columns.contains name).eraseDups.contains last =
          (names.filter fun name => !columns.contains name).any (· == last) := by
        rw [Bool.eq_iff_iff, List.contains_iff_mem, List.mem_eraseDups, List.any_beq', List.contains_iff_mem]
      rw [Bool.false_or, listed, Bool.not_false, if_pos rfl, eraseDups_concat]
      split
      · exact (List.append_nil _).symm
      · rfl

inductive Requirement where
  | named
  | apart
  | absent
  | present
  | filled
  | proper
  | known

namespace Requirement

/-- The order in which requirements are checked. -/
def inOrder : List Requirement :=
  [named, apart, absent, present, filled, proper, known]

theorem mem_inOrder (requirement : Requirement) : requirement ∈ inOrder := by
  cases requirement <;> simp [inOrder]

def Holds (request : SampleRequest) (catalog : Catalog) : Requirement → Prop
  | named => Text.trim request.output ≠ "" ∧ Text.trim request.source ≠ ""
  | apart => Text.trim request.source ≠ Text.trim request.output
  | absent => catalog.under (Text.trim request.output) = none
  | present => ∃ table, catalog.under (Text.trim request.source) = some table
  | filled => ∃ table, catalog.under (Text.trim request.source) = some table ∧ table.rowCount ≠ 0
  | proper => ∃ exact, request.proportion.toRat? = some exact ∧ 0 < exact ∧ exact ≤ 1
  | known => ∀ name ∈ request.mentioned (request.sourceColumns catalog), name ∈ request.sourceColumns catalog

/-- What is said of a request that does not meet a requirement. -/
def error (request : SampleRequest) (catalog : Catalog) : Requirement → Error
  | named =>
    let role := if Text.trim request.output = "" then "output" else "source"
    .invalidArgument (role ++ " relation name must not be blank")
  | apart => .invalidArgument ("output relation '" ++ Text.trim request.output ++ "' must differ from the source")
  | absent => .alreadyExists (Text.trim request.output)
  | present => .notFound (Text.trim request.source)
  | filled => .emptyInput (Text.trim request.source)
  | proper => .invalidArgument ("proportion must be in (0, 1], got " ++ request.proportion.display)
  | known =>
    .schemaMismatch ("unknown column(s) in '" ++ Text.trim request.source ++ "': " ++
      String.intercalate ", " (request.unknownColumns (request.sourceColumns catalog)))

end Requirement

/-- An answer that some requirements, checked one after the other, lead to. -/
inductive Screened (request : SampleRequest) (catalog : Catalog) :
    List Requirement → Except Error α × Catalog → Prop where
  | passed {value : α} : Screened request catalog [] (.ok value, catalog)
  | unmet {requirement : Requirement} {rest : List Requirement} (fails : ¬requirement.Holds request catalog) :
      Screened request catalog (requirement :: rest) (.error (requirement.error request catalog), catalog)
  | met {requirement : Requirement} {rest : List Requirement} {answer : Except Error α × Catalog}
      (holds : requirement.Holds request catalog) (others : Screened request catalog rest answer) :
      Screened request catalog (requirement :: rest) answer

namespace Screened

variable {request : SampleRequest} {catalog : Catalog} {requirement : Requirement} {rest requirements : List Requirement}

theorem check {condition : Prop} [Decidable condition] {error : Error} {next : PUnit → Attempt α}
    (fair : condition ↔ ¬requirement.Holds request catalog) (told : error = requirement.error request catalog)
    (others : requirement.Holds request catalog →
      Screened request catalog rest (Catalog.backend.attempt (next ⟨⟩) catalog)) :
    Screened request catalog (requirement :: rest) (Catalog.backend.attempt
      (if condition then MonadExcept.throw error >>= next else next ⟨⟩) catalog) := by
  split
  next failed =>
    rw [told]
    exact .unmet (fair.mp failed)
  next passed =>
    have holds := not_not.mp (mt fair.mpr passed)
    exact .met holds (others holds)

theorem unchanged {answer : Except Error α × Catalog} (screened : Screened request catalog requirements answer) :
    answer.2 = catalog := by
  induction screened with
  | passed | unmet => rfl
  | met _ _ ih => exact ih

theorem isOk_iff {answer : Except Error α × Catalog} (screened : Screened request catalog requirements answer) :
    (∃ value, answer.1 = .ok value) ↔ ∀ requirement ∈ requirements, requirement.Holds request catalog := by
  induction screened with
  | passed => simp
  | unmet fails => simp [fails]
  | met holds _ ih => simpa [holds] using ih

/-- An error is that of the first requirement that is unmet. -/
theorem first_unmet {answer : Except Error α × Catalog} {error : Error}
    (screened : Screened request catalog requirements answer) (failed : answer.1 = .error error) :
    ∃ passed unmet later, requirements = passed ++ unmet :: later ∧
      (∀ requirement ∈ passed, requirement.Holds request catalog) ∧ ¬unmet.Holds request catalog ∧
      error = unmet.error request catalog := by
  induction screened with
  | passed => cases failed
  | @unmet requirement rest fails =>
    cases failed
    exact ⟨[], requirement, rest, rfl, by simp, fails, rfl⟩
  | @met requirement _ _ holds _ ih =>
    obtain ⟨passed, unmet, later, rfl, before, fails, same⟩ := ih failed
    refine ⟨requirement :: passed, unmet, later, rfl, ?_, fails, same⟩
    exact List.forall_mem_cons.mpr ⟨holds, before⟩

end Screened

theorem SampleRequest.namedRelation_cases (raw role : String) :
    (Text.trim raw = "" ∧
        namedRelation raw role = .error (.invalidArgument (role ++ " relation name must not be blank"))) ∨
      Text.trim raw ≠ "" ∧ ∃ name, name.text = Text.trim raw ∧ namedRelation raw role = .ok name := by
  unfold namedRelation RelationName.ofString?
  by_cases blank : Text.trim raw = ""
  · exact .inl ⟨blank, by simp only [blank, dite_true]⟩
  · exact .inr ⟨blank, ⟨Text.trim raw, Text.trim_trim raw, blank⟩, rfl, by simp only [blank, dite_false]⟩

theorem Counts.checkProportion_cases (proportion : Double) :
    (∃ exact, proportion.toRat? = some exact ∧ 0 < exact ∧ exact ≤ 1) ∧ checkProportion proportion = .ok () ∨
      (¬∃ exact, proportion.toRat? = some exact ∧ 0 < exact ∧ exact ≤ 1) ∧
        checkProportion proportion =
          .error (.invalidArgument ("proportion must be in (0, 1], got " ++ proportion.display)) := by
  unfold checkProportion
  by_cases proper : isProportion proportion = true
  · exact .inl ⟨isProportion_eq_true proper, if_pos proper⟩
  · refine .inr ⟨?_, if_neg proper⟩
    rintro ⟨exact, found, bounds⟩
    exact proper (by simp only [isProportion, found, bounds, and_self, decide_true])

/-- The last check of a request, once its source is known. -/
theorem SampleRequest.resolve_screened (request : SampleRequest) (catalog : Catalog) {source : RelationName}
    (output : RelationName) (sourceText : source.text = Text.trim request.source) :
    Screened request catalog [.known] (request.resolve source output (request.sourceColumns catalog), catalog) := by
  have unknown : missingColumns (request.sourceColumns catalog) (request.mentioned (request.sourceColumns catalog)) =
      request.unknownColumns (request.sourceColumns catalog) := missingColumns_eq _ _
  unfold mentioned at unknown
  have known : Requirement.known.Holds request catalog ↔
      request.unknownColumns (request.sourceColumns catalog) = [] := by
    simp [Requirement.Holds, unknownColumns, List.eq_nil_iff_forall_not_mem]
  dsimp only [resolve]
  rw [unknown]
  split
  next none => exact .met (known.mpr none) .passed
  next some =>
    rw [sourceText]
    exact .unmet (mt known.mp some)

theorem SampleRequest.validate_screened (request : SampleRequest) (catalog : Catalog) :
    Screened request catalog Requirement.inOrder (Catalog.backend.attempt request.validate catalog) := by
  unfold validate
  -- Both names are one requirement; the output's is looked at first, which decides whose role an error names.
  rcases namedRelation_cases request.output "output" with
    ⟨blank, failed⟩ | ⟨outputSolid, output, outputText, outputNamed⟩
  · rw [Backend.attempt_bind_error (by rw [Backend.attempt_settled, failed])]
    have told : Error.invalidArgument ("output" ++ " relation name must not be blank") =
        Requirement.named.error request catalog := by
      simp only [Requirement.error, blank, if_true]
    rw [told]
    exact .unmet fun named => named.1 blank
  rw [Backend.attempt_bind_ok (by rw [Backend.attempt_settled, outputNamed])]
  rcases namedRelation_cases request.source "source" with
    ⟨blank, failed⟩ | ⟨sourceSolid, source, sourceText, sourceNamed⟩
  · rw [Backend.attempt_bind_error (by rw [Backend.attempt_settled, failed])]
    have told : Error.invalidArgument ("source" ++ " relation name must not be blank") =
        Requirement.named.error request catalog := by
      simp only [Requirement.error, outputSolid, if_false]
    rw [told]
    exact .unmet fun named => named.2 blank
  rw [Backend.attempt_bind_ok (by rw [Backend.attempt_settled, sourceNamed])]
  refine .met ⟨outputSolid, sourceSolid⟩ (.check ?_ (by rw [outputText]; rfl) fun _ => ?_)
  · rw [Requirement.Holds, not_not, ← outputText, ← sourceText, RelationName.text_inj]
  rw [Backend.attempt_bind_ok rfl]
  refine .check ?_ (by rw [outputText]; rfl) fun _ => ?_
  · rw [Requirement.Holds, ← outputText, Catalog.contains_eq_under, ← ne_eq, Option.ne_none_iff_isSome]
  rw [Backend.attempt_bind_ok rfl]
  refine .check ?_ (by rw [sourceText]; rfl) fun present => ?_
  · rw [Requirement.Holds, ← sourceText, Catalog.contains_eq_under, ← Option.isSome_iff_exists, Bool.not_eq_true']
    exact (Bool.not_eq_true _).symm.to_iff
  obtain ⟨table, found⟩ := present
  have here : catalog.table? source = some table := by rw [Catalog.table?_eq_under, sourceText, found]
  rw [Backend.attempt_bind_ok (Catalog.attempt_isEmpty here)]
  refine .check ?_ (by rw [sourceText]; rfl) fun _ => ?_
  · simp [Requirement.Holds, found, Table.isEmpty]
  rcases Counts.checkProportion_cases request.proportion with ⟨proper, checked⟩ | ⟨improper, failed⟩
  · rw [Backend.attempt_bind_ok (by rw [Backend.attempt_settled, checked]),
      Backend.attempt_bind_ok (Catalog.attempt_columns here), Backend.attempt_settled]
    have columns : table.schema.names = request.sourceColumns catalog := by rw [sourceColumns, found]; rfl
    rw [columns]
    exact .met proper (request.resolve_screened catalog output sourceText)
  · rw [Backend.attempt_bind_error (by rw [Backend.attempt_settled, failed])]
    exact .unmet improper

/-- A request is accepted if it meets all requirements, which are: names that are not blank, that differ, the
output's new and the source's there; a source with rows; a proportion above zero and up to one; keys
and targets that are columns of the source. Otherwise it is refused for the first of them that it does not
meet, and an error about columns names those that the source does not have. The catalog stays as it is. -/
theorem validate_reports_first (request : SampleRequest) (catalog : Catalog) :
    let (answer, after) := Catalog.backend.attempt request.validate catalog
    after = catalog ∧
      ((∃ valid, answer = .ok valid) ↔ ∀ requirement : Requirement, requirement.Holds request catalog) ∧
      ∀ error, answer = .error error →
        ∃ passed unmet later, Requirement.inOrder = passed ++ unmet :: later ∧
          (∀ requirement ∈ passed, requirement.Holds request catalog) ∧ ¬unmet.Holds request catalog ∧
          error = unmet.error request catalog := by
  have screened := request.validate_screened catalog
  refine ⟨screened.unchanged, screened.isOk_iff.trans ?_, fun _ failed => screened.first_unmet failed⟩
  exact ⟨fun all requirement => all requirement requirement.mem_inOrder, fun all requirement _ => all requirement⟩

end StratifiedSampling
