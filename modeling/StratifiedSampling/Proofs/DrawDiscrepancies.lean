import Mathlib.Data.List.Forall2
import Std.Data.String.ToNat
import StratifiedSampling.Backend.Script
import StratifiedSampling.Proofs.RunCleanup
import StratifiedSampling.Proofs.Validation

/-! Runs with replacement that find draws and rows at odds, on any backend and whatever it replies.
The error is about the first stratum of the source whose rows in the output are not its draws. If
there is none it is about all rows, and gives their number beside the number of draws that were
expected; the number of draws that were made is compared, too, but is not told. -/

namespace StratifiedSampling

variable {σ : Type}

section Messages

/-- What an error about draws and rows says of their numbers. -/
def drawsText (draws rows : Nat) : String :=
  s!"{draws} draws resolved to {rows} rows"

/-- The digits of a number end at the first blank. -/
theorem takeWhile_toDigits (number : Nat) (rest : List Char) :
    (Nat.toDigits 10 number ++ ' ' :: rest).takeWhile (fun char => char != ' ') = Nat.toDigits 10 number := by
  have solid : ∀ digit ∈ Nat.toDigits 10 number, (digit != ' ') = true := by
    intro digit member
    have isDigit := Nat.isDigit_of_mem_toDigits (by decide) (by decide) member
    refine bne_iff_ne.mpr fun same => ?_
    rw [same] at isDigit
    exact absurd isDigit (by decide)
  rw [List.takeWhile_append_of_pos solid, List.takeWhile_cons_of_neg (by decide), List.append_nil]

/-- The numbers can be read back from the text. -/
theorem drawsText_inj {draws rows otherDraws otherRows : Nat} (same : drawsText draws rows = drawsText otherDraws otherRows) :
    draws = otherDraws ∧ rows = otherRows := by
  have shape : ∀ draws rows, (drawsText draws rows).toList =
      Nat.toDigits 10 draws ++ ' ' :: ("draws resolved to ".toList ++ (Nat.toDigits 10 rows ++ " rows".toList)) := by
    intro draws rows
    have text : drawsText draws rows = draws.repr ++ (" draws resolved to " ++ (rows.repr ++ " rows")) := by
      simp only [drawsText, String.append_assoc]
      rfl
    rw [text]
    simp only [String.toList_append, Nat.toList_repr]
    rfl
  have texts := congrArg String.toList same
  rw [shape, shape] at texts
  have first := congrArg (List.takeWhile fun char => char != ' ') texts
  rw [takeWhile_toDigits, takeWhile_toDigits] at first
  obtain rfl := Nat.repr_injective (congrArg String.ofList first)
  have rest := List.append_cancel_left (List.cons.inj (List.append_cancel_left texts)).2
  exact ⟨rfl, Nat.repr_injective (congrArg String.ofList (List.append_cancel_right rest))⟩

/-- A key that is not empty is told column by column. -/
theorem describeKey_ne_all {columns : List String} {key : List Value} (keyed : columns ≠ []) (filled : key ≠ []) :
    describeKey columns key ≠ "<all rows>" := by
  obtain ⟨column, columns, rfl⟩ := List.exists_cons_of_ne_nil keyed
  obtain ⟨value, key, rfl⟩ := List.exists_cons_of_ne_nil filled
  have equals : '=' ∈ (describeKey (column :: columns) (value :: key)).toList := by
    unfold describeKey
    rw [List.isEmpty_cons, if_neg Bool.false_ne_true, String.toList_intercalate, List.zip_cons_cons, List.map_cons,
      List.map_cons]
    have here : '=' ∈ (column ++ "=" ++ value.describe).toList := by simp
    cases (columns.zip key).map fun entry => entry.1 ++ "=" ++ entry.2.describe with
    | nil => exact (List.intercalate_singleton).symm ▸ here
    | cons next rest =>
      rw [List.map_cons, List.intercalate_cons_cons]
      exact List.mem_append_left _ (List.mem_append_left _ here)
  intro same
  rw [same] at equals
  exact absurd equals (by decide)

end Messages

section Relays
variable {backend : Backend σ}

/-- An attempt that ends with an error of consistency only if the backend replied with that error. -/
def Relays (backend : Backend σ) (program : Attempt α) : Prop :=
  ∀ start stratum detail, (backend.recorded.attempt program start).1 = .error (.consistency stratum detail) →
    ∃ exchange ∈ (backend.recorded.attempt program start).2.1, exchange.reply = .error (.consistency stratum detail)

namespace Relays

theorem settled {outcome : Except Error α} (never : ∀ stratum detail, outcome ≠ .error (.consistency stratum detail)) :
    Relays backend (.settled outcome) :=
  fun _ stratum detail failed => absurd failed (never stratum detail)

theorem call (call : Call) : Relays backend (.call call) := by
  intro start stratum detail failed
  exact ⟨⟨call, (backend.answer call start.2).1⟩, List.mem_append_right _ (List.mem_singleton.mpr rfl), failed⟩

theorem bind {program : Attempt α} {next : α → Attempt β} (first : Relays backend program)
    (rest : ∀ value, Relays backend (next value)) : Relays backend (program >>= next) := by
  intro start stratum detail
  have here := first start stratum detail
  rw [Backend.attempt_bind]
  revert here
  rcases backend.recorded.attempt program start with ⟨outcome, after⟩
  intro here
  cases outcome with
  | error error =>
    intro failed
    cases failed
    exact here rfl
  | ok value => exact rest value after stratum detail

theorem throw {error : Error} (other : error.kind ≠ .consistency) : Relays backend (throw error : Attempt α) := by
  intro start stratum detail failed
  cases failed
  exact absurd rfl other

theorem check {condition : Prop} [Decidable condition] {error : Error} {next : PUnit → Attempt β}
    (other : error.kind ≠ .consistency) (rest : ∀ checked, Relays backend (next checked)) :
    Relays backend (if condition then MonadExcept.throw error >>= next else next ⟨⟩ : Attempt β) := by
  split
  · exact .bind (.throw other) rest
  · exact rest ⟨⟩

end Relays

theorem SampleRequest.validate_relays (request : SampleRequest) : Relays backend request.validate := by
  have named : ∀ raw role stratum detail, namedRelation raw role ≠ .error (.consistency stratum detail) := by
    intro raw role stratum detail
    unfold namedRelation
    split <;> rintro ⟨⟩
  have proper : ∀ stratum detail, Counts.checkProportion request.proportion ≠ .error (.consistency stratum detail) := by
    intro stratum detail
    unfold Counts.checkProportion
    split <;> rintro ⟨⟩
  have resolved : ∀ source output columns stratum detail,
      request.resolve source output columns ≠ .error (.consistency stratum detail) := by
    intro source output columns stratum detail
    simp only [resolve]
    split <;> rintro ⟨⟩
  unfold validate
  refine .bind (.settled (named _ _)) fun output => .bind (.settled (named _ _)) fun source => ?_
  refine .check (by rintro ⟨⟩) fun _ => .bind (.call _) fun taken => ?_
  refine .check (by rintro ⟨⟩) fun _ => .bind (.call _) fun present => .check (by rintro ⟨⟩) fun _ => ?_
  refine .bind (.call _) fun empty => .check (by rintro ⟨⟩) fun _ => .bind (.settled proper) fun _ => ?_
  exact .bind (.call _) fun columns => .settled (resolved _ _ _)

theorem Sampler.prepare_relays (config : SamplerConfig) (request : SampleRequest) (freshSeed : UInt64) :
    Relays backend (prepare config request freshSeed) := by
  have settings : ∀ stratum detail, config.validate ≠ .error (.consistency stratum detail) := by
    intro stratum detail
    unfold SamplerConfig.validate
    split <;> rintro ⟨⟩
  refine .bind (.settled settings) fun _ => .bind request.validate_relays fun _ => .bind (.call _) fun _ => .settled ?_
  rintro _ _ ⟨⟩

end Relays

section Work
variable (backend : Backend σ)

/-- A staged relation is created, and the run goes on if that went well. -/
theorem Staged.play_stage_bind (suffix : String) (spec : RelationSpec) (next : RelationName × Nat → Staged α) (area : Staging)
    (log : List Exchange) (state : σ) :
    Staged.play backend.recorded (Staging.stage suffix spec >>= next) area (log, state) =
      let name := Staging.nameOf area.stagingPrefix area.token suffix
      let grown := { area with staged := area.staged ++ [name] }
      let after := (log ++ [⟨.create name spec, (backend.answer (.create name spec) state).1⟩],
        (backend.answer (.create name spec) state).2)
      match (backend.answer (.create name spec) state).1 with
      | .ok rows => Staged.play backend.recorded (next (name, rows)) grown after
      | .error error => ((.error error, grown), after) := by
  rw [Staged.play_bind, Staged.play_stage]
  simp only [Backend.recorded]
  rcases backend.answer (.create (Staging.nameOf area.stagingPrefix area.token suffix) spec) state with ⟨reply, after⟩
  cases reply <;> rfl

theorem Staged.play_createOutput_bind (output : RelationName) (spec : RelationSpec) (next : Nat → Staged α) (area : Staging)
    (log : List Exchange) (state : σ) :
    Staged.play backend.recorded (Staging.createOutput output spec >>= next) area (log, state) =
      let reply := (backend.answer (.create output spec) state).1
      let grown := { area with output := Staged.owned output reply }
      let after := (log ++ [⟨.create output spec, reply⟩], (backend.answer (.create output spec) state).2)
      match reply with
      | .ok rows => Staged.play backend.recorded (next rows) grown after
      | .error error => ((.error error, grown), after) := by
  rw [Staged.play_bind, Staged.play_createOutput]
  simp only [Backend.recorded]
  rcases backend.answer (.create output spec) state with ⟨reply, after⟩
  cases reply <;> rfl

/-- The calls of a run that finds draws and rows at odds, from the count of the strata on, and
what they were answered. -/
def SamplePlan.exchanges (plan : SamplePlan) (named : String → RelationName) (ranked drawn written : Nat)
    (counts : List GroupCount) : List Exchange :=
  let rank := plan.fresh "__strata_rank"
  let draw := plan.fresh "__strata_draw"
  [⟨.groupCounts plan.request.source plan.keys, .ok plan.strataSizes⟩,
    ⟨.create (named "ranked") (.rowNumber plan.request.source plan.keys rank), .ok ranked⟩,
    ⟨.create (named "draws")
      (.groupDraws plan.request.source plan.keys plan.request.proportion draw plan.seed), .ok drawn⟩,
    ⟨.create plan.request.output (.join (named "ranked") (named "draws") plan.keys (some ⟨.equal, rank, draw⟩)
      plan.request.outputColumns), .ok written⟩,
    ⟨.groupCounts plan.request.output plan.keys, .ok counts⟩]

/-- A call that failed last is in the log. -/
theorem told_last (log : List Exchange) (call : Call) (error : Error) :
    ∃ exchange ∈ log ++ [⟨call, .error error⟩], exchange.reply = .error error :=
  ⟨⟨call, .error error⟩, List.mem_append_right _ (List.mem_singleton.mpr rfl), rfl⟩

/-- Work with replacement fails for an error of the backend or because draws and rows are at odds. -/
theorem SamplePlan.withReplacement_fails (plan : SamplePlan) (area : Staging) (seen : List Exchange) (state : σ) :
    let final := Staged.play backend.recorded plan.withReplacement area
      (seen ++ [⟨.groupCounts plan.request.source plan.keys, .ok plan.strataSizes⟩], state)
    ∀ error, final.1.1 = .error error → (∃ exchange ∈ final.2.1, exchange.reply = .error error) ∨
      ∃ ranked drawn written counts,
        final.2.1 = seen ++ plan.exchanges (Staging.nameOf area.stagingPrefix area.token) ranked drawn written counts ∧
        (written ≠ plan.expectedDraws ∨ drawn ≠ plan.expectedDraws) ∧ error = plan.unresolvedDraws counts written := by
  intro final error
  unfold final SamplePlan.withReplacement
  dsimp only
  rw [Staged.play_stage_bind]
  dsimp only
  rcases backend.answer (.create _ _) state with ⟨ranked, state⟩
  cases ranked with
  | error fault =>
    intro failed
    cases failed
    exact .inl (told_last _ _ _)
  | ok ranked =>
    dsimp only
    rw [Staged.play_stage_bind]
    dsimp only
    rcases backend.answer (.create _ (.groupDraws ..)) state with ⟨drawn, state⟩
    cases drawn with
    | error fault =>
      intro failed
      cases failed
      exact .inl (told_last _ _ _)
    | ok drawn =>
      dsimp only
      rw [Staged.play_createOutput_bind]
      dsimp only
      rcases backend.answer (.create _ (.join ..)) state with ⟨written, state⟩
      cases written with
      | error fault =>
        intro failed
        cases failed
        exact .inl (told_last _ _ _)
      | ok written =>
        dsimp only
        split
        next odd =>
          rw [Staged.play_bind, Staged.play_groupCounts]
          simp only [Backend.recorded]
          rcases backend.answer (.groupCounts _ _) state with ⟨counts, state⟩
          cases counts with
          | error fault =>
            intro failed
            cases failed
            exact .inl (told_last _ _ _)
          | ok counts =>
            intro failed
            cases failed
            refine .inr ⟨ranked, drawn, written, counts, ?_, odd, rfl⟩
            simp only [List.append_assoc]
            rfl
        next =>
          intro failed
          cases failed

end Work

section Discrepancies
variable {plan : SamplePlan} {counts : List GroupCount} {drawn written draws rows : Nat} {stratum : String}

namespace SamplePlan

/-- The draws that are to be made from a stratum. -/
def drawsOf (plan : SamplePlan) (stratum : GroupCount) : Nat :=
  Counts.drawCount stratum.count plan.request.proportion

/-- Every stratum of the source has as many rows in the output as draws. -/
def Agrees (plan : SamplePlan) (counts : List GroupCount) : Prop :=
  ∀ group ∈ plan.strataSizes, writtenFor counts group.key = plan.drawsOf group

end SamplePlan

/-- The stratum that an error is about, and the numbers of draws and rows that it states. -/
inductive Discrepancy (plan : SamplePlan) (drawn written : Nat) (counts : List GroupCount) : String → Nat → Nat → Prop where
  /-- The first stratum of the source that has other rows than draws. -/
  | stratum {before after : List GroupCount} {group : GroupCount} (split : plan.strataSizes = before ++ group :: after)
      (earlier : ∀ other ∈ before, SamplePlan.writtenFor counts other.key = plan.drawsOf other)
      (differs : SamplePlan.writtenFor counts group.key ≠ plan.drawsOf group) :
      Discrepancy plan drawn written counts (describeKey plan.keys group.key) (plan.drawsOf group)
        (SamplePlan.writtenFor counts group.key)
  /-- The strata agree, and more or fewer rows than expected were written. -/
  | written (agrees : plan.Agrees counts) (differs : written ≠ plan.expectedDraws) :
      Discrepancy plan drawn written counts "<all rows>" plan.expectedDraws written
  /-- All rows are as expected, but more or fewer draws were made, which is not told. -/
  | drawn (agrees : plan.Agrees counts) (same : written = plan.expectedDraws) (differs : drawn ≠ plan.expectedDraws) :
      Discrepancy plan drawn written counts "<all rows>" plan.expectedDraws written

theorem SamplePlan.unresolvedDraws_names (plan : SamplePlan) (counts : List GroupCount)
    (odd : written ≠ plan.expectedDraws ∨ drawn ≠ plan.expectedDraws) :
    ∃ stratum draws rows, plan.unresolvedDraws counts written = .consistency stratum (drawsText draws rows) ∧
      Discrepancy plan drawn written counts stratum draws rows := by
  unfold unresolvedDraws
  dsimp only
  split
  next group found =>
    obtain ⟨differs, before, after, split, earlier⟩ := List.find?_eq_some_iff_append.mp found
    refine ⟨_, _, _, rfl, .stratum split (fun other member => ?_) (bne_iff_ne.mp differs)⟩
    simpa [drawsOf] using earlier other member
  next none =>
    have agrees : plan.Agrees counts := by
      intro group member
      simpa [drawsOf] using List.find?_eq_none.mp none group member
    refine ⟨_, _, _, rfl, ?_⟩
    by_cases same : written = plan.expectedDraws
    · exact .drawn agrees same (odd.resolve_left (absurd same))
    · exact .written agrees same

/-- The numbers are the same only if all rows are as expected. -/
theorem Discrepancy.draws_eq_rows (found : Discrepancy plan drawn written counts stratum draws rows) :
    draws = rows ↔ plan.Agrees counts ∧ written = plan.expectedDraws := by
  cases found with
  | stratum split _ differs =>
    refine ⟨fun same => absurd same.symm differs, fun ⟨agrees, _⟩ => absurd (agrees _ ?_) differs⟩
    rw [split]
    exact List.mem_append_right _ List.mem_cons_self
  | written agrees differs => exact ⟨fun same => absurd same.symm differs, fun ⟨_, same⟩ => same.symm⟩
  | drawn agrees same _ => exact ⟨fun _ => ⟨agrees, same⟩, fun _ => same.symm⟩

theorem Discrepancy.drawn_ne (found : Discrepancy plan drawn written counts stratum draws rows) (same : draws = rows) :
    drawn ≠ plan.expectedDraws := by
  cases found with
  | stratum _ _ differs => exact absurd same.symm differs
  | written _ differs => exact absurd same.symm differs
  | drawn _ _ differs => exact differs

/-- Among keys that are told column by column, all rows are named only if the strata agree. -/
theorem Discrepancy.agrees (found : Discrepancy plan drawn written counts stratum draws rows) (keyed : plan.keys ≠ [])
    (filled : ∀ group ∈ plan.strataSizes, group.key ≠ []) (all : stratum = "<all rows>") : plan.Agrees counts := by
  cases found with
  | stratum split =>
    refine absurd all (describeKey_ne_all keyed (filled _ ?_))
    rw [split]
    exact List.mem_append_right _ List.mem_cons_self
  | written agrees => exact agrees
  | drawn agrees => exact agrees

end Discrepancies

section Runs
variable {backend : Backend σ}

/-- A request that is accepted is kept as it was made. -/
theorem SampleRequest.asked_of_validate {request : SampleRequest} {valid : ValidRequest} {state final : σ}
    (accepted : backend.attempt request.validate state = (.ok valid, final)) :
    valid.proportion = request.proportion ∧ valid.withReplacement = request.withReplacement ∧
      valid.strata = Strata.resolve (request.keys.getD []) := by
  unfold validate at accepted
  obtain ⟨output, _, -, accepted⟩ := Backend.attempt_bind_eq_ok accepted
  obtain ⟨source, _, -, accepted⟩ := Backend.attempt_bind_eq_ok accepted
  obtain ⟨-, accepted⟩ := Backend.attempt_check_eq_ok accepted
  obtain ⟨taken, _, -, accepted⟩ := Backend.attempt_bind_eq_ok accepted
  obtain ⟨-, accepted⟩ := Backend.attempt_check_eq_ok accepted
  obtain ⟨present, _, -, accepted⟩ := Backend.attempt_bind_eq_ok accepted
  obtain ⟨-, accepted⟩ := Backend.attempt_check_eq_ok accepted
  obtain ⟨empty, _, -, accepted⟩ := Backend.attempt_bind_eq_ok accepted
  obtain ⟨-, accepted⟩ := Backend.attempt_check_eq_ok accepted
  obtain ⟨checked, _, -, accepted⟩ := Backend.attempt_bind_eq_ok accepted
  obtain ⟨columns, _, -, accepted⟩ := Backend.attempt_bind_eq_ok accepted
  obtain ⟨-, -, -, proportion, mode, strata, -⟩ := resolve_eq_ok (Prod.mk.inj accepted).1
  exact ⟨proportion, mode, strata⟩

/-- What the calls of a run say about an error of consistency. -/
inductive Explained (request : SampleRequest) (named : String → RelationName) (log : List Exchange) (stratum : String) :
    String → Prop where
  /-- The backend replied with the error. -/
  | relayed {exchange : Exchange} {detail : String} (member : exchange ∈ log)
      (replied : exchange.reply = .error (.consistency stratum detail)) : Explained request named log stratum detail
  /-- Draws and rows are at odds, by what the backend replied. -/
  | found {plan : SamplePlan} {ranked drawn written draws rows : Nat} {counts : List GroupCount}
      {looks closing : List Exchange} (looked : ∀ exchange ∈ looks, exchange.call.Looks)
      (closes : ∀ exchange ∈ closing, exchange.call.Drops)
      (calls : log = looks ++ plan.exchanges named ranked drawn written counts ++ closing)
      (proportion : plan.request.proportion = request.proportion)
      (strata : plan.request.strata = Strata.resolve (request.keys.getD []))
      (discrepancy : Discrepancy plan drawn written counts stratum draws rows)
      (numbers : draws = rows ↔ plan.Agrees counts ∧ written = plan.expectedDraws)
      (untold : draws = rows → drawn ≠ plan.expectedDraws)
      (all : plan.keys ≠ [] → (∀ group ∈ plan.strataSizes, group.key ≠ []) → stratum = "<all rows>" →
        plan.Agrees counts) :
      Explained request named log stratum (drawsText draws rows)

theorem Sampler.carryOut_explained (backend : Backend σ) {request : SampleRequest} (config : SamplerConfig)
    {plan : SamplePlan} (token : Token) {looks : List Exchange} (state : σ) (mode : plan.request.withReplacement = true)
    (proportion : plan.request.proportion = request.proportion)
    (strata : plan.request.strata = Strata.resolve (request.keys.getD []))
    (looked : ∀ exchange ∈ looks, exchange.call.Looks) :
    let final := backend.recorded.attempt (carryOut config plan token)
      (looks ++ [⟨.groupCounts plan.request.source plan.keys, .ok plan.strataSizes⟩], state)
    ∀ stratum detail, final.1 = .error (.consistency stratum detail) →
      Explained request (Staging.nameOf (Text.trim config.stagingPrefix) token) final.2.1 stratum detail := by
  have fails := plan.withReplacement_fails backend (.start config.stagingPrefix token) looks state
  have strategy : SamplingStrategy.ofRequest plan.request.withReplacement = .withReplacement := by rw [mode]; rfl
  dsimp only
  rw [attempt_carryOut, work, strategy, SamplePlan.execute]
  dsimp only at fails ⊢
  generalize Staged.play backend.recorded plan.withReplacement (.start config.stagingPrefix token)
    (looks ++ [⟨.groupCounts plan.request.source plan.keys, .ok plan.strataSizes⟩], state) = played at fails ⊢
  obtain ⟨⟨outcome, area⟩, log, state⟩ := played
  obtain ⟨closing, grown, -, closes⟩ := recorded_dropAll backend (settledArea outcome area).leftovers log state
  intro stratum detail failed
  rw [Staging.close, grown]
  rcases fails _ failed with ⟨exchange, member, replied⟩ | ⟨ranked, drawn, written, counts, calls, odd, same⟩
  · exact .relayed (List.mem_append_left _ member) replied
  · obtain ⟨_, draws, rows, names, discrepancy⟩ := plan.unresolvedDraws_names counts odd
    obtain ⟨rfl, rfl⟩ := Error.consistency.inj (same.trans names)
    exact .found looked closes (congrArg (· ++ closing) calls) proportion strata discrepancy discrepancy.draws_eq_rows
      discrepancy.drawn_ne discrepancy.agrees

theorem Sampler.run_explained (backend : Backend σ) (config : SamplerConfig) {request : SampleRequest}
    (circumstances : Circumstances) (state : σ) (mode : request.withReplacement = true) {stratum detail : String} :
    let final := backend.recorded.attempt (run config request circumstances) ([], state)
    final.1 = .error (.consistency stratum detail) →
      Explained request (Staging.nameOf (Text.trim config.stagingPrefix) circumstances.token) final.2.1 stratum detail := by
  have relays : Relays backend (prepare config request circumstances.freshSeed) := prepare_relays _ _ _
  dsimp only
  rw [attempt_run]
  rcases made : backend.recorded.attempt (prepare config request circumstances.freshSeed) ([], state) with
    ⟨outcome, prepared⟩
  cases outcome with
  | error error =>
    intro failed
    cases failed
    obtain ⟨exchange, member, replied⟩ := relays ([], state) stratum detail (congrArg Prod.fst made)
    exact .relayed (by rwa [made] at member) replied
  | ok plan =>
    obtain ⟨-, -, validated, accepted, counted⟩ := prepare_eq_ok made
    obtain ⟨looks, grown, looked, -⟩ := request.validate_peeks.answered backend [] state
    obtain ⟨proportion, sameMode, strata⟩ := SampleRequest.asked_of_validate accepted
    unfold Backend.attempt at accepted
    rw [accepted] at grown
    have log : validated.1 = looks := grown
    obtain ⟨replied, rfl⟩ := Prod.mk.inj counted
    have asked : validated.1 ++ [⟨.groupCounts plan.request.source plan.request.strata.columns,
        (backend.answer (.groupCounts plan.request.source plan.request.strata.columns) validated.2).1⟩] =
        looks ++ [⟨.groupCounts plan.request.source plan.keys, .ok plan.strataSizes⟩] := by
      rw [log, replied]
      rfl
    rw [asked]
    have explained := carryOut_explained backend config circumstances.token
      (backend.answer (.groupCounts plan.request.source plan.request.strata.columns) validated.2).2
      (sameMode.trans mode) proportion strata looked stratum detail
    dsimp only at explained ⊢
    generalize backend.recorded.attempt (carryOut config plan circumstances.token) _ = ran at explained ⊢
    obtain ⟨outcome, final⟩ := ran
    intro failed
    cases outcome with
    | ok rows => cases failed
    | error error =>
      cases failed
      exact explained rfl

end Runs

/-- An error of consistency that a sample with replacement ends with, on any backend and whatever it
replies, is the backend's own or comes of draws and rows that are at odds. Then it is about the
first stratum of the source whose rows in the output are not its draws, with these two numbers;
if there is none it is about all rows, with the draws that were expected and the rows that were
written, and only a wrong number of draws lets these be the same. -/
theorem consistency_error_explained (backend : Backend σ) (sampler : Sampler) (request : SampleRequest)
    (circumstances : Circumstances) (state : σ) (mode : request.withReplacement = true) {stratum detail : String}
    (failed : (sampler.sample backend request circumstances state).1 = .error (.consistency stratum detail)) :
    Explained request (Staging.nameOf (Text.trim sampler.config.stagingPrefix) circumstances.token)
      (sampler.sample backend.recorded request circumstances ([], state)).2.2.1 stratum detail := by
  have same : (backend.recorded.attempt (Sampler.run sampler.config request circumstances) ([], state)).1 =
      (backend.attempt (Sampler.run sampler.config request circumstances) state).1 :=
    (backend.run_recorded (Sampler.run sampler.config request circumstances).run [] state).1
  rw [Sampler.sample_eq] at failed ⊢
  dsimp only at failed ⊢
  exact Sampler.run_explained backend sampler.config circumstances state mode (same.trans failed)

namespace TwoGroups

/-- A backend that tells of twelve and six people in two groups, and of what it has made of them. -/
def script (drawn written : Nat) (first second : Nat) : Script where
  existing := ["people"]
  empty := false
  columns := ["id", "group"]
  counts := [("people", [⟨[.string "a"], 12⟩, ⟨[.string "b"], 6⟩]),
    ("out", [⟨[.string "a"], first⟩, ⟨[.string "b"], second⟩])]
  created := [("row_number", 18), ("group_draws", drawn), ("join", written)]
  failures := []

/-- Half of the people of either group, with replacement. -/
def request : SampleRequest :=
  ⟨"people", "out", ⟨0x3FE0000000000000⟩, some ["group"], none, true⟩

def circumstances : Circumstances := ⟨"t1", 1, .zero⟩

/-- One draw from the second group has come to no row. -/
theorem short_group_named : ((Sampler.start .standard).sample (script 9 8 6 2).backend request circumstances ()).1 =
      .error (.consistency "group='b'" "3 draws resolved to 2 rows") ∧
    Explained request (Staging.nameOf (Text.trim (Sampler.start .standard).config.stagingPrefix) circumstances.token)
      ((Sampler.start .standard).sample (script 9 8 6 2).backend.recorded request circumstances ([], ())).2.2.1
      "group='b'" "3 draws resolved to 2 rows" := by
  have failed : ((Sampler.start .standard).sample (script 9 8 6 2).backend request circumstances ()).1 =
      .error (.consistency "group='b'" "3 draws resolved to 2 rows") := by
    decide +kernel
  exact ⟨failed, consistency_error_explained (script 9 8 6 2).backend (.start .standard) request circumstances () rfl failed⟩

/-- One draw fewer was made than expected, and the error states nine of both. -/
theorem missing_draw_untold : GroupCount.total [⟨[.string "a"], 6⟩, ⟨[.string "b"], 3⟩] = 9 ∧
    ((Sampler.start .standard).sample (script 8 9 6 3).backend request circumstances ()).1 =
      .error (.consistency "<all rows>" "9 draws resolved to 9 rows") ∧
    ¬∃ draws rows, draws ≠ rows ∧ "9 draws resolved to 9 rows" = drawsText draws rows := by
  refine ⟨rfl, by decide +kernel, ?_⟩
  rintro ⟨draws, rows, differ, same⟩
  have nine : drawsText 9 9 = "9 draws resolved to 9 rows" := by decide
  obtain ⟨rfl, rfl⟩ := drawsText_inj (nine.trans same)
  exact differ rfl

end TwoGroups

end StratifiedSampling
