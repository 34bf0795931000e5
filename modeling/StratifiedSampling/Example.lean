import StratifiedSampling.Table

/-! A table to try the sampler on: sales numbered from one, in regions of given sizes. -/

namespace StratifiedSampling.Example

def schema : Schema :=
  ⟨[.required "id" .int64, .nullable "region" .string, .nullable "tier" .string, .nullable "amount" .float64]⟩

/-- Tiers alternate within a region. The amount of a sale is two and a half times its number. -/
def sale (region : String) (place number : Nat) : Row :=
  [.int64 (Int64.ofNat number), .string region, .string (if place % 2 = 0 then "gold" else "silver"),
    .float64 (.ofRat (Double.round number * (5 / 2)))]

def sales : Nat → List (String × Nat) → List Row
  | _, [] => []
  | before, (region, size) :: regions =>
    (List.range size).map (fun place => sale region place (before + place + 1)) ++ sales (before + size) regions

def table (regions : List (String × Nat)) : Except Error Table :=
  Table.ofRows schema (sales 0 regions)

end StratifiedSampling.Example
