import Mathlib.Data.Rat.Defs

/-! # Python's numbers -/

namespace HamZaboon

/-- A float; its finite values are exact. -/
inductive PyFloat
  | finite (q : ℚ)
  | inf
  | negInf
  | nan
  deriving DecidableEq

/-- An `int` or a `float`. -/
inductive PyNum
  | int (n : Int)
  | float (x : PyFloat)
  deriving DecidableEq

/-- `bool(x)`. -/
def PyFloat.truthy : PyFloat → Bool
  | .finite q => q ≠ 0
  | _ => true

/-- `int(x)`; `none` for the `OverflowError`, `some none` for the `ValueError`. -/
def PyFloat.toInt : PyFloat → Option (Option Int)
  | .finite q => some (some (q.num.tdiv q.den))
  | .nan => some none
  | _ => none

end HamZaboon
