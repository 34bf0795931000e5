import StratifiedSampling.Proofs.CatalogRuns
import StratifiedSampling.Session.Basic

/-! Sampling calls are atomic on the catalog. A call that fails leaves the catalog as it
was; a call that succeeds adds its output and nothing else. -/

namespace StratifiedSampling

/-- A name that a run may stage under: it is not taken, and it is not the output's. -/
def Apart (catalog : Catalog) (output name : RelationName) : Prop :=
  catalog.contains name = false ∧ name ≠ output

/-- The names that a token gives are not in the catalog, and none is the output's. -/
def FreshToken (stagingPrefix : String) (token : Token) (output : String) (catalog : Catalog) : Prop :=
  ∀ suffix ∈ ["labeled", "thresholds", "ranked", "draws"],
    catalog.contains (Staging.nameOf (Text.trim stagingPrefix) token suffix) = false ∧
      (Staging.nameOf (Text.trim stagingPrefix) token suffix).text ≠ Text.trim output

theorem RelationName.text_of_ofString? {raw : String} {name : RelationName} (named : ofString? raw = some name) :
    name.text = Text.trim raw := by
  unfold ofString? at named
  split at named
  · cases named
  · exact congrArg RelationName.text (Option.some.inj named).symm

theorem FreshToken.apart {stagingPrefix : String} {token : Token} {raw : String} {catalog : Catalog}
    {output : RelationName} (fresh : FreshToken stagingPrefix token raw catalog) (trimmed : output.text = Text.trim raw) :
    ∀ suffix ∈ ["labeled", "thresholds", "ranked", "draws"],
      Apart catalog output (Staging.nameOf (Text.trim stagingPrefix) token suffix) := by
  intro suffix member
  obtain ⟨free, different⟩ := fresh suffix member
  exact ⟨free, fun same => different (same ▸ trimmed)⟩

/-- A run in the middle of its work has added the relations of its area. -/
structure Working (before : Catalog) (output : RelationName) (names : String → RelationName) (area : Staging)
    (catalog : Catalog) : Prop where
  named : Staging.nameOf area.stagingPrefix area.token = names
  unwritten : area.output = none
  uncommitted : area.committed = false
  apart : ∀ name ∈ area.staged, Apart before output name
  added : ∃ made, made.map Prod.fst = area.staged ∧ catalog = before.with_ made

/-- Closing the area brings the catalog back. -/
def Undone (before : Catalog) (area : Staging) (catalog : Catalog) : Prop :=
  area.committed = false ∧ (∀ name ∈ area.leftovers, before.contains name = false) ∧
    ∃ made, (∀ entry ∈ made, entry.1 ∈ area.leftovers) ∧ catalog = before.with_ made

/-- The output has been added, and everything else that was added is in the area. -/
def Written (before : Catalog) (output : RelationName) (table : Table) (area : Staging) (catalog : Catalog) : Prop :=
  area.committed = false ∧ area.output = some output ∧ (∀ name ∈ area.staged, Apart before output name) ∧
    ∃ made, made.map Prod.fst = area.staged ∧ catalog = before.with_ (made ++ [(output, table)])

def Worked (before : Catalog) (output : RelationName) (outcome : Except Error Nat) (area : Staging)
    (catalog : Catalog) : Prop :=
  match outcome with
  | .ok rows => ∃ table, rows = table.rowCount ∧ Written before output table area catalog
  | .error _ => Undone before area catalog

section Work
variable {before : Catalog} {output : RelationName} {names : String → RelationName}

theorem stage_working {suffix : String} (apart : Apart before output (names suffix)) (spec : RelationSpec) :
    Staged.Triple Catalog.backend (Working before output names) (Staging.stage suffix spec)
      fun outcome area catalog =>
        match outcome with
        | .ok _ => Working before output names area catalog
        | .error _ => Undone before area catalog := by
  apply Staged.Triple.stage
  rintro area _ ⟨rfl, unwritten, uncommitted, apartAll, made, staged, rfl⟩
  have apartNow : ∀ name ∈ area.staged ++ [Staging.nameOf area.stagingPrefix area.token suffix],
      Apart before output name := by
    intro name member
    rcases List.mem_append.mp member with member | member
    · exact apartAll name member
    · exact List.mem_singleton.mp member ▸ apart
  dsimp only
  generalize Staging.nameOf area.stagingPrefix area.token suffix = name at apartNow ⊢
  have reply := Catalog.create_cases (before.with_ made) name spec
  generalize Catalog.backend.answer (.create name spec) (before.with_ made) = answered at reply ⊢
  rcases reply with ⟨error, -, rfl⟩ | ⟨table, -, -, rfl⟩
  · refine ⟨uncommitted, ?_, made, ?_, rfl⟩
    · intro other member
      exact (apartNow other (by simpa [Staging.leftovers, unwritten, or_comm] using member)).1
    · intro entry member
      have known : entry.1 ∈ area.staged := staged ▸ List.mem_map_of_mem member
      simp [Staging.leftovers, known]
  · exact ⟨rfl, unwritten, uncommitted, apartNow, made ++ [(name, table)], by simp [staged], by simp⟩

theorem createOutput_worked (absent : before.contains output = false) (spec : RelationSpec) :
    Staged.Triple Catalog.backend (Working before output names) (Staging.createOutput output spec)
      (Worked before output) := by
  apply Staged.Triple.createOutput
  rintro area _ ⟨-, unwritten, uncommitted, apart, made, staged, rfl⟩
  have reply := Catalog.create_cases (before.with_ made) output spec
  generalize Catalog.backend.answer (.create output spec) (before.with_ made) = answered at reply ⊢
  rcases reply with ⟨error, -, rfl⟩ | ⟨table, -, -, rfl⟩
  · refine ⟨uncommitted, ?_, made, ?_, rfl⟩
    · intro name member
      rcases List.mem_append.mp member with member | member
      · exact (apart name (List.mem_reverse.mp member)).1
      · have same : name = output := by
          revert member
          simp only [Staged.owned, uncommitted]
          split <;> simp +contextual
        exact same ▸ absent
    · intro entry member
      have known : entry.1 ∈ area.staged := staged ▸ List.mem_map_of_mem member
      simp [Staging.leftovers, known]
  · exact ⟨table, rfl, uncommitted, rfl, apart, made, staged, by simp⟩

/-- An output that is found wanting can still be taken back. -/
theorem Written.undone {table : Table} {area : Staging} {catalog : Catalog} (absent : before.contains output = false)
    (written : Written before output table area catalog) : Undone before area catalog := by
  obtain ⟨uncommitted, owned, apart, made, staged, rfl⟩ := written
  have leftovers : area.leftovers = area.staged.reverse ++ [output] := by
    simp [Staging.leftovers, uncommitted, owned]
  refine ⟨uncommitted, ?_, made ++ [(output, table)], ?_, rfl⟩
  · intro name member
    rw [leftovers] at member
    rcases List.mem_append.mp member with member | member
    · exact (apart name (List.mem_reverse.mp member)).1
    · exact List.mem_singleton.mp member ▸ absent
  · intro entry member
    rw [leftovers]
    rcases List.mem_append.mp member with member | member
    · have known : entry.1 ∈ area.staged := staged ▸ List.mem_map_of_mem member
      simp [known]
    · simp [List.mem_singleton.mp member]

theorem SamplePlan.withoutReplacement_worked (plan : SamplePlan)
    (apart : ∀ suffix ∈ ["labeled", "thresholds", "ranked", "draws"], Apart before plan.request.output (names suffix))
    (absent : before.contains plan.request.output = false) :
    Staged.Triple Catalog.backend (Working before plan.request.output names) plan.withoutReplacement
      (Worked before plan.request.output) := by
  unfold withoutReplacement
  refine .bind (stage_working (apart "labeled" (by simp)) _) ?_ fun _ _ _ undone => undone
  rintro ⟨labeled, _⟩
  dsimp only
  split
  · exact createOutput_worked absent _
  · refine .bind (stage_working (apart "thresholds" (by simp)) _) ?_ fun _ _ _ undone => undone
    rintro ⟨thresholds, _⟩
    exact createOutput_worked absent _

theorem SamplePlan.withReplacement_worked (plan : SamplePlan)
    (apart : ∀ suffix ∈ ["labeled", "thresholds", "ranked", "draws"], Apart before plan.request.output (names suffix))
    (absent : before.contains plan.request.output = false) :
    Staged.Triple Catalog.backend (Working before plan.request.output names) plan.withReplacement
      (Worked before plan.request.output) := by
  unfold withReplacement
  refine .bind (stage_working (apart "ranked" (by simp)) _) ?_ fun _ _ _ undone => undone
  rintro ⟨ranked, _⟩
  refine .bind (stage_working (apart "draws" (by simp)) _) ?_ fun _ _ _ undone => undone
  rintro ⟨draws, drawn⟩
  refine .bind (createOutput_worked absent _) ?_ fun _ _ _ undone => undone
  intro rows
  constructor
  rintro area catalog ⟨table, counted, written⟩
  split
  · rw [Staged.play_bind, Staged.play_groupCounts]
    have undone := written.undone absent
    cases (Catalog.backend.answer (.groupCounts plan.request.output plan.keys) catalog).1 <;> exact undone
  · exact ⟨table, counted, written⟩

theorem SamplePlan.execute_worked (plan : SamplePlan) (strategy : SamplingStrategy)
    (apart : ∀ suffix ∈ ["labeled", "thresholds", "ranked", "draws"], Apart before plan.request.output (names suffix))
    (absent : before.contains plan.request.output = false) :
    Staged.Triple Catalog.backend (Working before plan.request.output names) (plan.execute strategy)
      (Worked before plan.request.output) := by
  cases strategy with
  | withoutReplacement => exact plan.withoutReplacement_worked apart absent
  | withReplacement => exact plan.withReplacement_worked apart absent

theorem Undone.closed {area : Staging} {catalog : Catalog} (undone : Undone before area catalog) :
    (Catalog.backend.run area.close catalog).2 = before := by
  obtain ⟨-, absent, made, dropped, rfl⟩ := undone
  have back : (Catalog.backend.run (Staging.dropAll area.leftovers) (before.with_ (made ++ []))).2 = before.with_ [] :=
    Catalog.drop_made absent dropped (by simp)
  rwa [List.append_nil, Catalog.with_nil] at back

theorem Written.closed {table : Table} {area : Staging} {catalog : Catalog}
    (written : Written before output table area catalog) :
    (Catalog.backend.run area.commit.close catalog).2 = before.with_ [(output, table)] := by
  obtain ⟨-, -, apart, made, staged, rfl⟩ := written
  have leftovers : area.commit.leftovers = area.staged.reverse := by simp [Staging.leftovers, Staging.commit]
  rw [Staging.close, leftovers]
  apply Catalog.drop_made
  · intro name member
    exact (apart name (List.mem_reverse.mp member)).1
  · intro entry member
    exact List.mem_reverse.mpr (staged ▸ List.mem_map_of_mem member)
  · intro entry member listed
    rw [List.mem_singleton.mp member] at listed
    exact (apart output (List.mem_reverse.mp listed)).2 rfl
end Work

/-- One call on a catalog: an error leaves it, and a report comes with one new relation. -/
def Atomic (request : SampleRequest) (before : Catalog) (outcome : Except Error SampleReport) (after : Catalog) :
    Prop :=
  match outcome with
  | .error _ => after = before
  | .ok report => report.output.text = Text.trim request.output ∧ before.contains report.output = false ∧
      ∃ table, after = before.with_ [(report.output, table)] ∧ report.rowsWritten = table.rowCount

def CarriedOut (output : RelationName) (before : Catalog) (outcome : Except Error Nat) (after : Catalog) : Prop :=
  match outcome with
  | .error _ => after = before
  | .ok rows => ∃ table, after = before.with_ [(output, table)] ∧ rows = table.rowCount

namespace Sampler

theorem carryOut_atomic {config : SamplerConfig} {plan : SamplePlan} {token : Token} {before after : Catalog}
    {outcome : Except Error Nat}
    (apart : ∀ suffix ∈ ["labeled", "thresholds", "ranked", "draws"],
      Apart before plan.request.output (Staging.nameOf (Text.trim config.stagingPrefix) token suffix))
    (absent : before.contains plan.request.output = false)
    (ran : Catalog.backend.attempt (carryOut config plan token) before = (outcome, after)) :
    CarriedOut plan.request.output before outcome after := by
  have start : Working before plan.request.output (Staging.nameOf (Text.trim config.stagingPrefix) token)
      (.start config.stagingPrefix token) before := ⟨rfl, rfl, rfl, by simp [Staging.start], [], rfl, by simp⟩
  have worked := (plan.execute_worked (.ofRequest plan.request.withReplacement) apart absent).ends _ _ start
  rw [attempt_carryOut, work] at ran
  revert ran worked
  rcases Staged.play Catalog.backend (plan.execute (.ofRequest plan.request.withReplacement))
    (.start config.stagingPrefix token) before with ⟨⟨reached, area⟩, catalog⟩
  intro ran worked
  obtain ⟨rfl, rfl⟩ := Prod.mk.inj ran
  cases reached with
  | error error => exact worked.closed
  | ok rows =>
    obtain ⟨table, counted, written⟩ := worked
    exact ⟨table, written.closed, counted⟩

theorem run_atomic {config : SamplerConfig} {request : SampleRequest} {circumstances : Circumstances}
    {before after : Catalog} {outcome : Except Error SampleReport}
    (fresh : FreshToken config.stagingPrefix circumstances.token request.output before)
    (ran : Catalog.backend.attempt (run config request circumstances) before = (outcome, after)) :
    Atomic request before outcome after := by
  have unchanged := Catalog.attempt_of_peeks (prepare_peeks config request circumstances.freshSeed) before
  rw [attempt_run] at ran
  rcases prepared : Catalog.backend.attempt (prepare config request circumstances.freshSeed) before with
    ⟨reached, catalog⟩
  rw [prepared] at unchanged ran
  obtain rfl : catalog = before := unchanged
  cases reached with
  | error error =>
    obtain ⟨rfl, rfl⟩ := Prod.mk.inj ran
    rfl
  | ok plan =>
    obtain ⟨-, -, validated, valid, -⟩ := prepare_eq_ok prepared
    obtain ⟨table, accepted⟩ := SampleRequest.accepted_of_validate (by rw [valid])
    have trimmed := RelationName.text_of_ofString? accepted.output
    have apart := fresh.apart trimmed
    dsimp only at ran
    rcases carried : Catalog.backend.attempt (carryOut config plan circumstances.token) catalog with
      ⟨written, final⟩
    have worked := carryOut_atomic apart accepted.absent carried
    rw [carried] at ran
    obtain ⟨rfl, rfl⟩ := Prod.mk.inj ran
    cases written with
    | error error => exact worked
    | ok rows => exact ⟨trimmed, accepted.absent, worked⟩

theorem sample_atomic (sampler : Sampler) {counted : Sampler} {request : SampleRequest} {circumstances : Circumstances}
    {before after : Catalog} {outcome : Except Error SampleReport}
    (fresh : FreshToken sampler.config.stagingPrefix circumstances.token request.output before)
    (ran : sampler.sample Catalog.backend request circumstances before = (outcome, counted, after)) :
    Atomic request before outcome after := by
  rw [sample_eq] at ran
  rcases reached : Catalog.backend.attempt (run sampler.config request circumstances) before with ⟨result, final⟩
  rw [reached] at ran
  obtain ⟨rfl, same⟩ := Prod.mk.inj ran
  obtain ⟨-, rfl⟩ := Prod.mk.inj same
  exact run_atomic fresh reached

end Sampler

structure SampleCall where
  sampler : Sampler
  request : SampleRequest
  circumstances : Circumstances

namespace SampleCall

def run (call : SampleCall) (catalog : Catalog) : Except Error SampleReport × Catalog :=
  let (outcome, _, after) := call.sampler.sample Catalog.backend call.request call.circumstances catalog
  (outcome, after)

def runAll : List SampleCall → Catalog → List (Except Error SampleReport) × Catalog
  | [], catalog => ([], catalog)
  | call :: rest, catalog =>
    let (outcome, catalog) := call.run catalog
    let (outcomes, catalog) := runAll rest catalog
    (outcome :: outcomes, catalog)

def FreshTokens : List SampleCall → Catalog → Prop
  | [], _ => True
  | call :: rest, catalog =>
    FreshToken call.sampler.config.stagingPrefix call.circumstances.token call.request.output catalog ∧
      FreshTokens rest (call.run catalog).2

end SampleCall

/-- Every request of a batch has a fresh token when its turn comes, if the settings of the session are valid. -/
def Session.FreshTokens : Session → List (SampleRequest × Circumstances) → Prop
  | _, [] => True
  | session, (request, circumstances) :: rest =>
    (∀ config, session.samplerConfig = .ok config →
      FreshToken config.stagingPrefix circumstances.token request.output session.catalog) ∧
      Session.FreshTokens (session.sample request circumstances).2 rest

def succeededOutputs (requests : List SampleRequest) (outcomes : List (Except Error SampleReport)) : List String :=
  (requests.zip outcomes).filterMap fun (request, outcome) =>
    outcome.toOption.map fun _ => Text.trim request.output

/-- Many calls on a catalog: each has an outcome, and the catalog has grown by one relation for
each that succeeded, of a name that was new. -/
structure Grown (before : Catalog) (requests : List SampleRequest) (outcomes : List (Except Error SampleReport))
    (after : Catalog) : Prop where
  answered : outcomes.length = requests.length
  added : ∃ made, after = before.with_ made ∧
    made.map (fun entry => entry.1.text) = succeededOutputs requests outcomes ∧
    (∀ entry ∈ made, before.contains entry.1 = false) ∧ (made.map Prod.fst).Nodup

theorem Grown.nil (catalog : Catalog) : Grown catalog [] [] catalog :=
  ⟨rfl, [], by simp, rfl, by simp, by simp⟩

theorem Grown.cons {request : SampleRequest} {requests : List SampleRequest} {before middle after : Catalog}
    {outcome : Except Error SampleReport} {outcomes : List (Except Error SampleReport)}
    (first : Atomic request before outcome middle) (rest : Grown middle requests outcomes after) :
    Grown before (request :: requests) (outcome :: outcomes) after := by
  obtain ⟨answered, made, rfl, named, absent, distinct⟩ := rest
  refine ⟨congrArg (· + 1) answered, ?_⟩
  cases outcome with
  | error error =>
    cases first
    exact ⟨made, rfl, named, absent, distinct⟩
  | ok report =>
    obtain ⟨trimmed, new, table, rfl, -⟩ := first
    have apart : ∀ entry ∈ made, before.contains entry.1 = false ∧ report.output ≠ entry.1 := by
      intro entry member
      simpa [Catalog.contains, Catalog.with_] using absent entry member
    refine ⟨(report.output, table) :: made, by simp, ?_, ?_, ?_⟩
    · rw [List.map_cons, named, trimmed]
      rfl
    · intro entry member
      rcases List.mem_cons.mp member with rfl | member
      · exact new
      · exact (apart entry member).1
    · refine List.nodup_cons.mpr ⟨fun repeated => ?_, distinct⟩
      obtain ⟨entry, member, same⟩ := List.mem_map.mp repeated
      exact (apart entry member).2 same.symm

theorem SampleCall.run_atomic {call : SampleCall} {before after : Catalog} {outcome : Except Error SampleReport}
    (fresh : FreshToken call.sampler.config.stagingPrefix call.circumstances.token call.request.output before)
    (ran : call.run before = (outcome, after)) : Atomic call.request before outcome after := by
  unfold run at ran
  rcases sampled : call.sampler.sample Catalog.backend call.request call.circumstances before with
    ⟨result, counted, final⟩
  rw [sampled] at ran
  obtain ⟨rfl, rfl⟩ := Prod.mk.inj ran
  exact call.sampler.sample_atomic fresh sampled

theorem SampleCall.runAll_grown {calls : List SampleCall} {before after : Catalog}
    {outcomes : List (Except Error SampleReport)} (fresh : FreshTokens calls before)
    (ran : runAll calls before = (outcomes, after)) :
    Grown before (calls.map SampleCall.request) outcomes after := by
  induction calls generalizing before outcomes with
  | nil =>
    obtain ⟨rfl, rfl⟩ := Prod.mk.inj ran
    exact .nil before
  | cons call rest ih =>
    obtain ⟨first, others⟩ := fresh
    rw [runAll] at ran
    rcases called : call.run before with ⟨outcome, middle⟩
    rw [called] at ran others
    rcases continued : runAll rest middle with ⟨outcomes, final⟩
    simp only [continued] at ran
    obtain ⟨rfl, rfl⟩ := Prod.mk.inj ran
    have atomic := SampleCall.run_atomic first called
    have grown := ih others continued
    exact .cons atomic grown

/-- A sample is turned away if the settings are at fault. Otherwise it is a run of a sampler
that begins with the counters of the session, and leaves it those that it ends with. -/
theorem Session.sample_cases (session : Session) (request : SampleRequest) (circumstances : Circumstances) :
    (∃ error, session.samplerConfig = .error error ∧
      session.sample request circumstances = (.error error, session)) ∨
    ∃ config outcome counted catalog, session.samplerConfig = .ok config ∧
      (Sampler.withMetrics config session.metrics).sample Catalog.backend request circumstances session.catalog =
        (outcome, counted, catalog) ∧
      session.sample request circumstances = (outcome, { session with catalog, metrics := counted.metrics }) := by
  unfold sample
  cases session.samplerConfig with
  | error error => exact .inl ⟨error, rfl, rfl⟩
  | ok config => exact .inr ⟨config, _, _, _, rfl, rfl, rfl⟩

theorem Session.sample_atomic {session after : Session} {request : SampleRequest} {circumstances : Circumstances}
    {outcome : Except Error SampleReport}
    (fresh : ∀ config, session.samplerConfig = .ok config →
      FreshToken config.stagingPrefix circumstances.token request.output session.catalog)
    (ran : session.sample request circumstances = (outcome, after)) :
    Atomic request session.catalog outcome after.catalog := by
  rcases session.sample_cases request circumstances with
    ⟨error, -, turned⟩ | ⟨config, result, counted, final, settings, sampled, same⟩
  · cases turned.symm.trans ran
    rfl
  · cases same.symm.trans ran
    exact (Sampler.withMetrics config session.metrics).sample_atomic (fresh config settings) sampled

theorem Session.sampleBatch_grown {session after : Session} {requests : List (SampleRequest × Circumstances)}
    {outcomes : List (Except Error SampleReport)} (fresh : session.FreshTokens requests)
    (ran : session.sampleBatch requests = (outcomes, after)) :
    Grown session.catalog (requests.map Prod.fst) outcomes after.catalog := by
  induction requests generalizing session outcomes with
  | nil =>
    obtain ⟨rfl, rfl⟩ := Prod.mk.inj ran
    exact .nil _
  | cons first rest ih =>
    obtain ⟨request, circumstances⟩ := first
    obtain ⟨first, others⟩ := fresh
    rw [sampleBatch] at ran
    rcases sampled : session.sample request circumstances with ⟨outcome, middle⟩
    rw [sampled] at ran others
    rcases continued : middle.sampleBatch rest with ⟨outcomes, final⟩
    simp only [continued] at ran
    obtain ⟨rfl, rfl⟩ := Prod.mk.inj ran
    exact .cons (Session.sample_atomic first sampled) (ih others continued)

/-- A call with a fresh token is atomic on the catalog, and so is every sequence of calls and
every batch of a session, up to one new relation for each success. What the catalog held
before is there afterwards. -/
theorem samples_are_atomic :
    (∀ (sampler counted : Sampler) (request : SampleRequest) (circumstances : Circumstances)
      (before after : Catalog) (outcome : Except Error SampleReport),
      FreshToken sampler.config.stagingPrefix circumstances.token request.output before →
      sampler.sample Catalog.backend request circumstances before = (outcome, counted, after) →
      Atomic request before outcome after ∧
        ∀ name table, before.table? name = some table → after.table? name = some table) ∧
    (∀ (calls : List SampleCall) (before after : Catalog) (outcomes : List (Except Error SampleReport)),
      SampleCall.FreshTokens calls before → SampleCall.runAll calls before = (outcomes, after) →
      Grown before (calls.map SampleCall.request) outcomes after) ∧
    (∀ (session after : Session) (requests : List (SampleRequest × Circumstances))
      (outcomes : List (Except Error SampleReport)),
      session.FreshTokens requests → session.sampleBatch requests = (outcomes, after) →
      Grown session.catalog (requests.map Prod.fst) outcomes after.catalog) := by
  refine ⟨?_, fun calls before after outcomes => SampleCall.runAll_grown,
    fun session after requests outcomes => Session.sampleBatch_grown⟩
  intro sampler counted request circumstances before after outcome fresh ran
  have atomic := sampler.sample_atomic fresh ran
  refine ⟨atomic, fun name table found => ?_⟩
  cases outcome with
  | error error => cases atomic; exact found
  | ok report =>
    obtain ⟨-, -, made, rfl, -⟩ := atomic
    exact Catalog.table?_with found

namespace ThreeSales

/-- Three sales in two regions, the only table of a catalog. -/
def table : Table :=
  ⟨⟨[.nullable "region" .string, .required "id" .int64]⟩,
    [("region", .string (Table.present ["north", "north", "south"])), ("id", .int64 (Table.present [1, 2, 3]))], 3⟩

def name : RelationName := ⟨"sales", by decide, by decide⟩

def output : RelationName := ⟨"sample", by decide, by decide⟩

def catalog : Catalog := ⟨[(name, table)]⟩

def circumstances : Circumstances := ⟨"t1", 7, .zero⟩

def request (withReplacement : Bool) : SampleRequest :=
  ⟨" sales", "sample ", ⟨0x3FE0000000000000⟩, some ["region"], none, withReplacement⟩

/-- A request for a table that is not there, and then one that is. -/
def calls : List SampleCall :=
  [⟨.start .standard, { request false with source := "orders" }, circumstances⟩,
    ⟨.start .standard, request true, circumstances⟩]

def session : Session := { Session.standard with catalog }

theorem sampled_atomically :
    (∃ outcome counted after, (Sampler.start .standard).sample Catalog.backend (request false) circumstances catalog =
      (outcome, counted, after) ∧ Atomic (request false) catalog outcome after ∧ after.table? name = some table) ∧
    (∃ outcomes after, SampleCall.runAll calls catalog = (outcomes, after) ∧
      Grown catalog (calls.map SampleCall.request) outcomes after) ∧
    ∃ outcomes after, session.sampleBatch [(request false, circumstances)] = (outcomes, after) ∧
      Grown catalog [request false] outcomes after.catalog := by
  obtain ⟨single, sequence, batch⟩ := samples_are_atomic
  have fresh : FreshToken SamplerConfig.standard.stagingPrefix "t1" "sample " catalog := by
    unfold FreshToken
    decide
  have firstFails : (SampleCall.run ⟨.start .standard, { request false with source := "orders" }, circumstances⟩
      catalog).2 = catalog := rfl
  refine ⟨?_, ?_, ?_⟩
  · rcases ran : (Sampler.start .standard).sample Catalog.backend (request false) circumstances catalog with
      ⟨outcome, counted, after⟩
    obtain ⟨atomic, kept⟩ := single (.start .standard) counted (request false) circumstances catalog after outcome fresh ran
    exact ⟨outcome, counted, after, rfl, atomic, kept name table rfl⟩
  · rcases ran : SampleCall.runAll calls catalog with ⟨outcomes, after⟩
    have secondFresh : SampleCall.FreshTokens [⟨.start .standard, request true, circumstances⟩] catalog :=
      ⟨fresh, trivial⟩
    exact ⟨outcomes, after, rfl, sequence calls catalog after outcomes ⟨fresh, firstFails ▸ secondFresh⟩ ran⟩
  · rcases ran : session.sampleBatch [(request false, circumstances)] with ⟨outcomes, after⟩
    have standard : session.samplerConfig = .ok .standard := rfl
    have tokens : session.FreshTokens [(request false, circumstances)] := by
      refine ⟨fun config settings => ?_, trivial⟩
      cases standard.symm.trans settings
      exact fresh
    exact ⟨outcomes, after, rfl, batch session after [(request false, circumstances)] outcomes tokens ran⟩

end ThreeSales

end StratifiedSampling
