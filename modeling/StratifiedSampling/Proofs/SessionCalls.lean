import StratifiedSampling.Proofs.CatalogIntegrity

/-! Calls of a session, one after the other. A call may sample, change the catalog, the
variables or the counters, or only look; one that fails is followed by the next. -/

namespace StratifiedSampling

/-- A look at a session, which changes nothing. -/
inductive SessionLook where
  | table (name : String)
  | query (name : String)
  | tableExists (name : String)
  | tableNames
  | stratumCounts (name : String) (keys : List String)
  | variableValue (name : String)
  | samplerConfig

namespace SessionLook

def Reply : SessionLook → Type
  | table _ => Except Error Table
  | query _ => Except Error QueryResult
  | tableExists _ => Except Error Bool
  | tableNames => List String
  | stratumCounts .. => Except Error (List GroupCount)
  | variableValue _ => Option Value
  | samplerConfig => Except Error SamplerConfig

def answer (session : Session) : (look : SessionLook) → look.Reply
  | table name => session.table name
  | query name => session.query name
  | tableExists name => session.tableExists name
  | tableNames => session.tableNames
  | stratumCounts name keys => session.stratumCounts name keys
  | variableValue name => session.variableValue? name
  | samplerConfig => session.samplerConfig

end SessionLook

/-- A call of a session, or a change of its backend. A sample comes with the circumstances of its run. -/
inductive SessionCall where
  | createTable (name : String) (contents : Table)
  | dropTable (name : String)
  | change (made : CatalogChange)
  | setVariable (name : String) (value : Value)
  | removeVariable (name : String)
  | resetMetrics
  | sample (request : SampleRequest) (circumstances : Circumstances)
  | sampleBatch (requests : List (SampleRequest × Circumstances))
  | look (asked : SessionLook)

namespace SessionCall

def Reply : SessionCall → Type
  | createTable .. | dropTable _ => Except Error Unit
  | change _ => Except Error (Option Nat)
  | setVariable .. | removeVariable _ | resetMetrics => Unit
  | sample .. => Except Error SampleReport
  | sampleBatch _ => List (Except Error SampleReport)
  | look asked => asked.Reply

/-- The reply and the session after a change that may fail. -/
def settle (before : Session) : Except Error Session → Except Error Unit × Session
  | .ok after => (.ok (), after)
  | .error error => (.error error, before)

def run : (call : SessionCall) → Session → call.Reply × Session
  | createTable name contents, session => settle session (session.createTable name contents)
  | dropTable name, session => settle session (session.dropTable name)
  | change made, session =>
    let (reply, catalog) := made.run session.catalog
    (reply, { session with catalog })
  | setVariable name value, session => ((), session.setVariable name value)
  | removeVariable name, session => ((), session.removeVariable name)
  | resetMetrics, session => ((), session.resetMetrics)
  | sample request circumstances, session => session.sample request circumstances
  | sampleBatch requests, session => session.sampleBatch requests
  | look asked, session => (asked.answer session, session)

/-- The requests for samples that a call issues. -/
def requests : SessionCall → List (SampleRequest × Circumstances)
  | sample request circumstances => [(request, circumstances)]
  | sampleBatch requests => requests
  | _ => []

/-- What came of the requests of a call. -/
def outcomes : (call : SessionCall) → call.Reply → List (Except Error SampleReport)
  | sample .., outcome => [outcome]
  | sampleBatch _, outcomes => outcomes
  | createTable .., _ | dropTable _, _ | change _, _ | setVariable .., _ | removeVariable _, _ | resetMetrics, _
  | look _, _ => []

/-- The outcomes of all requests, and the session after the last call. -/
def runAll : List SessionCall → Session → List (Except Error SampleReport) × Session
  | [], session => ([], session)
  | call :: rest, session =>
    let (reply, session) := call.run session
    let (others, session) := runAll rest session
    (call.outcomes reply ++ others, session)

end SessionCall

namespace Text

theorem ascii_of_toUpper {char : Char} (ascii : char.toUpper.toNat < 128) : char.toNat < 128 := by
  unfold Char.toUpper at ascii
  split at ascii
  next lower =>
    have below := lower.2
    simp only [UInt32.le_iff_toNat_le] at below
    have bound : char.toNat ≤ 122 := below
    omega
  next => exact ascii

/-- A name of ASCII characters is one name, in small letters or in capitals. -/
theorem uppercase_of_toUpper {text name : String} (spelled : text.toList.map Char.toUpper = name.toList)
    (ascii : (name.toList.all fun char => char.toNat < 128) = true) : uppercase text = name := by
  have single : ∀ char ∈ text.toList, upperChar char = [char.toUpper] := by
    intro char member
    have small := List.all_eq_true.mp ascii _ (spelled ▸ List.mem_map_of_mem member)
    exact if_pos (ascii_of_toUpper (of_decide_eq_true small))
  apply String.ext
  rw [uppercase, String.toList_ofList, List.flatMap_congr single, ← List.map_eq_flatMap, spelled]

end Text

namespace SessionVariables

theorem uppercase_seedVariable : Text.uppercase seedVariable = seedVariable := by decide

theorem get?_set {assigned : SessionVariables} {name other : String} {value : Value}
    (same : Text.uppercase other = Text.uppercase name) : (assigned.set name value).get? other = some value := by
  simp [set, get?, same]

theorem get?_remove_of_ne {assigned : SessionVariables} {name other : String}
    (different : Text.uppercase other ≠ Text.uppercase name) : (assigned.remove name).get? other = assigned.get? other := by
  simp only [remove, get?, List.find?_filter]
  congr 2
  funext entry
  by_cases same : entry.1 = Text.uppercase other <;> simp [same, different]

theorem get?_set_of_ne {assigned : SessionVariables} {name other : String} {value : Value}
    (different : Text.uppercase other ≠ Text.uppercase name) : (assigned.set name value).get? other = assigned.get? other := by
  have kept : (assigned.set name value).get? other = (assigned.remove name).get? other := by
    simp [set, get?, Ne.symm different]
  exact kept.trans (get?_remove_of_ne different)

end SessionVariables

namespace Session

/-- A sample leaves the variables of its session and what they override. -/
theorem sample_settings (session : Session) (request : SampleRequest) (circumstances : Circumstances) :
    (session.sample request circumstances).2.assigned = session.assigned ∧
      (session.sample request circumstances).2.config = session.config := by
  rcases session.sample_cases request circumstances with ⟨error, -, same⟩ | ⟨_, _, _, _, -, -, same⟩ <;> rw [same] <;>
    exact ⟨rfl, rfl⟩

theorem sampleBatch_settings (session : Session) (requests : List (SampleRequest × Circumstances)) :
    (session.sampleBatch requests).2.assigned = session.assigned ∧
      (session.sampleBatch requests).2.config = session.config := by
  induction requests generalizing session with
  | nil => exact ⟨rfl, rfl⟩
  | cons first rest ih =>
    obtain ⟨assigned, config⟩ := session.sample_settings first.1 first.2
    exact ⟨(ih _).1.trans assigned, (ih _).2.trans config⟩

end Session

theorem Grown.table? {before after : Catalog} {requests : List SampleRequest}
    {outcomes : List (Except Error SampleReport)} {name : RelationName} {table : Table}
    (grown : Grown before requests outcomes after) (found : before.table? name = some table) :
    after.table? name = some table := by
  obtain ⟨made, rfl, -⟩ := grown.added
  exact Catalog.table?_with found

namespace SessionCall

/-- A table is created by an insertion into the catalog, if its name is not blank. -/
theorem settle_createTable (session : Session) (name : String) (contents : Table) :
    (settle session (session.createTable name contents)).2 = session ∨ ∃ relation,
      (settle session (session.createTable name contents)).2 =
        { session with catalog := ((CatalogChange.insert relation contents).run session.catalog).2 } := by
  unfold Session.createTable RelationName.ofString
  cases RelationName.ofString? name with
  | none => exact .inl rfl
  | some relation =>
    refine .inr ⟨relation, ?_⟩
    change (settle session (session.catalog.insert relation contents >>= fun catalog =>
      .ok { session with catalog })).2 = _
    rw [CatalogChange.run]
    cases session.catalog.insert relation contents <;> rfl

theorem settle_dropTable (session : Session) (name : String) :
    (settle session (session.dropTable name)).2 = session ∨ ∃ relation, relation.text = Text.trim name ∧
      (settle session (session.dropTable name)).2 = { session with catalog := session.catalog.drop relation } := by
  unfold Session.dropTable RelationName.ofString
  cases named : RelationName.ofString? name with
  | none => exact .inl rfl
  | some relation => exact .inr ⟨relation, RelationName.text_of_ofString? named, rfl⟩

/-- A call that neither drops the source nor sets or removes the seed, and samples under fresh
tokens only. -/
def Spares (source : RelationName) : SessionCall → Session → Prop
  | dropTable name, _ => Text.trim name ≠ source.text
  | change (.drop name), _ => name ≠ source
  | setVariable name _, _ | removeVariable name, _ => Text.uppercase name ≠ SessionVariables.seedVariable
  | sample request circumstances, session => session.FreshTokens [(request, circumstances)]
  | sampleBatch requests, session => session.FreshTokens requests
  | _, _ => True

def SparesAll (source : RelationName) : List SessionCall → Session → Prop
  | [], _ => True
  | call :: rest, session => call.Spares source session ∧ SparesAll source rest (call.run session).2

variable {source : RelationName} {contents : Table} {session : Session}

theorem run_seed {call : SessionCall} (spares : call.Spares source session) :
    (call.run session).2.variableValue? SessionVariables.seedVariable =
      session.variableValue? SessionVariables.seedVariable := by
  have upper := SessionVariables.uppercase_seedVariable
  cases call with
  | createTable name contents =>
    rcases settle_createTable session name contents with same | ⟨relation, same⟩ <;> rw [run, same]
    rfl
  | dropTable name =>
    rcases settle_dropTable session name with same | ⟨relation, -, same⟩ <;> rw [run, same]
    rfl
  | setVariable name value => exact SessionVariables.get?_set_of_ne (upper ▸ Ne.symm spares)
  | removeVariable name => exact SessionVariables.get?_remove_of_ne (upper ▸ Ne.symm spares)
  | sample request circumstances =>
    exact congrArg (SessionVariables.get? · _) (session.sample_settings request circumstances).1
  | sampleBatch requests => exact congrArg (SessionVariables.get? · _) (session.sampleBatch_settings requests).1
  | change | resetMetrics | look => rfl

theorem run_source {call : SessionCall} (spares : call.Spares source session)
    (found : session.catalog.table? source = some contents) :
    (call.run session).2.catalog.table? source = some contents := by
  cases call with
  | createTable name created =>
    rcases settle_createTable session name created with same | ⟨relation, same⟩ <;> rw [run, same]
    · exact found
    · exact (CatalogChange.run_lawful (.insert relation created) session.catalog).kept source contents found nofun
  | dropTable name =>
    rcases settle_dropTable session name with same | ⟨relation, named, same⟩ <;> rw [run, same]
    · exact found
    · have apart : source ≠ relation := fun equal => spares (named.symm.trans (congrArg RelationName.text equal.symm))
      exact (Catalog.table?_drop apart).trans found
  | change made =>
    refine (made.run_lawful session.catalog).kept source contents found fun drops => ?_
    subst drops
    exact spares rfl
  | sample request circumstances =>
    have grown : Grown session.catalog [request] _ _ := Session.sampleBatch_grown spares rfl
    exact grown.table? found
  | sampleBatch requests => exact (Session.sampleBatch_grown spares rfl).table? found
  | setVariable | removeVariable | resetMetrics | look => exact found

/-- Calls that spare a source and the seed leave both as they are. -/
theorem runAll_spares {calls : List SessionCall} (spares : SparesAll source calls session)
    (found : session.catalog.table? source = some contents) :
    (runAll calls session).2.variableValue? SessionVariables.seedVariable =
        session.variableValue? SessionVariables.seedVariable ∧
      (runAll calls session).2.catalog.table? source = some contents := by
  induction calls generalizing session with
  | nil => exact ⟨rfl, found⟩
  | cons call rest ih =>
    obtain ⟨first, others⟩ := spares
    obtain ⟨seed, kept⟩ := ih others (run_source first found)
    exact ⟨seed.trans (run_seed first), kept⟩

end SessionCall

end StratifiedSampling
