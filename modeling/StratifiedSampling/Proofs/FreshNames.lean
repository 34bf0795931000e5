import Mathlib.Algebra.Ring.Nat
import StratifiedSampling.Proofs.ColumnNames

/-! The search for a name that is not taken. It tries a base with one number after the other and knows no
bound but that of its counter. It ends all the same: as many numbers as there are names taken cannot
all be used besides the base itself, and so many numbers the counter holds. -/

namespace StratifiedSampling

def numbered (base : String) (number : Int) : String :=
  base ++ "_" ++ toString number

/-- What a search comes to that tries the numbers from a counter on. The counter has 32 bits and goes on
from the greatest number with the least one. -/
inductive SearchEnds (base : String) (taken : List String) : Int32 → String → Prop
  | free {counter : Int32} (unused : numbered base counter.toInt ∉ taken) :
      SearchEnds base taken counter (numbered base counter.toInt)
  | next {counter : Int32} {name : String} (used : numbered base counter.toInt ∈ taken)
      (rest : SearchEnds base taken (counter + 1) name) : SearchEnds base taken counter name

namespace SearchEnds

variable {base : String} {taken : List String} {counter : Int32} {name other : String}

theorem unique (first : SearchEnds base taken counter name) (second : SearchEnds base taken counter other) :
    name = other := by
  induction first with
  | free unused =>
    cases second with
    | free => rfl
    | next used => exact absurd used unused
  | next used _ ih =>
    cases second with
    | free unused => exact absurd used unused
    | next _ rest => exact ih rest

/-- A search goes through the numbers that are used, up to the first that is not. -/
theorem of_least {first number : Nat} (before : first ≤ number) (fits : number < 2 ^ 31)
    (used : ∀ smaller : Nat, first ≤ smaller → smaller < number → numbered base smaller ∈ taken)
    (unused : numbered base number ∉ taken) : SearchEnds base taken (Int32.ofNat first) (numbered base number) := by
  have held : ∀ smaller : Nat, smaller ≤ number → (Int32.ofNat smaller).toInt = smaller := by
    intro smaller below
    exact Int32.toInt_ofNat_of_lt (by omega)
  induction before using Nat.decreasingInduction with
  | self =>
    have here : numbered base (Int32.ofNat number).toInt ∉ taken →
        SearchEnds base taken (Int32.ofNat number) (numbered base (Int32.ofNat number).toInt) := .free
    rw [held number (Nat.le_refl _)] at here
    exact here unused
  | of_succ first below ih =>
    have rest := ih fun smaller past => used smaller (by omega)
    rw [Int32.ofNat_add] at rest
    refine .next ?_ rest
    rw [held first (by omega)]
    exact used first (Nat.le_refl _) below

end SearchEnds

/-- If the base is taken, the name is the base with the first number from one on that is not used. -/
theorem freshColumn_numbered {base : String} {taken : List String} (used : base ∈ taken) :
    ∃ number : Nat, 1 ≤ number ∧ number ≤ taken.length ∧ freshColumn base taken = numbered base number ∧
      ∀ smaller : Nat, 1 ≤ smaller → smaller < number → numbered base smaller ∈ taken := by
  have unused := freshColumn_not_mem base taken
  have searched : freshColumn base taken =
      (((List.range taken.length).map fun index => base ++ "_" ++ toString (index + 1)).find?
        fun candidate => !taken.contains candidate).getD base :=
    if_pos (List.contains_iff_mem.mpr used)
  rw [searched] at unused ⊢
  cases found : ((List.range taken.length).map fun index => base ++ "_" ++ toString (index + 1)).find?
      fun candidate => !taken.contains candidate with
  | none =>
    rw [found] at unused
    exact absurd used unused
  | some name =>
    obtain ⟨-, place, inside, same, earlier⟩ := List.find?_eq_some_iff_getElem.mp found
    rw [List.length_map, List.length_range] at inside
    rw [List.getElem_map, List.getElem_range] at same
    refine ⟨place + 1, Nat.succ_pos place, inside, same.symm, fun smaller positive below => ?_⟩
    have passed := earlier (smaller - 1) (by omega)
    simp only [List.getElem_map, List.getElem_range, Nat.sub_add_cancel positive, Bool.not_not] at passed
    exact List.contains_iff_mem.mp passed

/-- A name that is made up is not taken. It is the base if that is free, and otherwise the base with the
least number from one on that gives a free name; the number is at most that of the names taken, and
the search for it, which tries all numbers, ends with this name and with no other. -/
theorem freshColumn_takes_least (base : String) (taken : List String) (few : taken.length < 2 ^ 31) :
    freshColumn base taken ∉ taken ∧ (base ∉ taken → freshColumn base taken = base) ∧
      (base ∈ taken → ∃ number : Nat, 1 ≤ number ∧ number ≤ taken.length ∧
        freshColumn base taken = numbered base number ∧
        (∀ smaller : Nat, 1 ≤ smaller → smaller < number → numbered base smaller ∈ taken) ∧
        ∀ name, SearchEnds base taken 1 name ↔ name = freshColumn base taken) := by
  have unused := freshColumn_not_mem base taken
  refine ⟨unused, fun free => if_neg (by simpa using free), fun used => ?_⟩
  obtain ⟨number, positive, bounded, same, least⟩ := freshColumn_numbered used
  have ends : SearchEnds base taken 1 (freshColumn base taken) := by
    rw [same] at unused ⊢
    exact .of_least positive (by omega) least unused
  refine ⟨number, positive, bounded, same, least, fun name => ⟨fun other => other.unique ends, ?_⟩⟩
  rintro rfl
  exact ends

/-- Names that look like numbered ones do not stop the search before the first gap. -/
theorem rank_numbered_past_gap :
    let taken := ["__strata_rank_3", "__strata_rank", "__strata_rank_1", "__strata_rank_1"]
    taken.length < 2 ^ 31 ∧ freshColumn "__strata_rank" taken ∉ taken ∧
      SearchEnds "__strata_rank" taken 1 "__strata_rank_2" := by
  intro taken
  have few : taken.length < 2 ^ 31 := by decide
  obtain ⟨unused, -, numbered⟩ := freshColumn_takes_least "__strata_rank" taken few
  obtain ⟨-, -, -, -, -, ends⟩ := numbered (by decide)
  exact ⟨few, unused, (ends _).mpr (by decide)⟩

end StratifiedSampling
