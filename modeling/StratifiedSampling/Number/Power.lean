/-! Powers of two and of ten, the units of doubles and of decimals. -/

namespace StratifiedSampling

def twoPow (exponent : Nat) : Nat :=
  Nat.pow 2 exponent

def tenPow (exponent : Nat) : Nat :=
  Nat.pow 10 exponent

end StratifiedSampling
