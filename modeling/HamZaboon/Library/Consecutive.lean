import Mathlib.Data.Set.Insert
import Mathlib.Tactic.Common

/-! # Runs of consecutive days

`MaximalRun days d k` says that the `k` days ending at `d` are all in `days` and
that the day before them is not.  A run is extended by the next day
(`MaximalRun.next`) and starts anew after a gap (`maximalRun_one`).
-/

namespace HamZaboon.Library

variable {days : Set ℤ} {d : ℤ} {k : ℕ}

/-- The maximal run of consecutive days of `days` that ends at `d` has length `k`. -/
structure MaximalRun (days : Set ℤ) (d : ℤ) (k : ℕ) : Prop where
  consecutive : ∀ i : ℕ, i < k → d - i ∈ days
  maximal : d - k ∉ days

theorem MaximalRun.pos (h : MaximalRun days d k) (hd : d ∈ days) : 0 < k := by
  rcases Nat.eq_zero_or_pos k with rfl | hk
  · exact absurd (by simpa using hd) h.maximal
  · exact hk

theorem maximalRun_one (hgap : d - 1 ∉ days) : MaximalRun (insert d days) d 1 where
  consecutive i hi := by
    obtain rfl : i = 0 := by omega
    simp
  maximal := by
    rintro (heq | hmem)
    · have : ((1 : ℕ) : ℤ) = 1 := rfl
      omega
    · exact hgap (by simpa using hmem)

theorem MaximalRun.next (h : MaximalRun days d k) :
    MaximalRun (insert (d + 1) days) (d + 1) (k + 1) where
  consecutive i hi := by
    cases i with
    | zero => simp
    | succ i =>
      have hmem := h.consecutive i (by omega)
      rw [show d + 1 - ((i + 1 : ℕ) : ℤ) = d - i by push_cast; omega]
      exact Set.mem_insert_of_mem _ hmem
  maximal := by
    rw [show d + 1 - ((k + 1 : ℕ) : ℤ) = d - k by push_cast; omega]
    rintro (heq | hmem)
    · omega
    · exact h.maximal hmem

end HamZaboon.Library
