import Mathlib.Data.List.Basic
import Mathlib.Tactic.Common

/-! # `ROW_NUMBER() OVER (PARTITION BY … ORDER BY …)`

The number of a row inside a scope is one more than the number of rows of the
scope in its partition that are ordered ahead of it.  The one fact the users of
a window function need is monotonicity: in a smaller scope no row's number is
larger (`rowNumber_mono`).
-/

namespace HamZaboon.Library

variable {ρ κ : Type} [DecidableEq κ] (part : ρ → κ) (ahead : ρ → ρ → Prop) [DecidableRel ahead]

/-- The row number of `r` among the rows of `scope`. -/
def rowNumber (scope : List ρ) (r : ρ) : Nat :=
  1 + scope.countP (fun s => part s = part r ∧ ahead s r)

theorem rowNumber_mono {small large : List ρ} (h : small.Sublist large) (r : ρ) :
    rowNumber part ahead small r ≤ rowNumber part ahead large r :=
  Nat.add_le_add_left h.countP_le 1

end HamZaboon.Library
