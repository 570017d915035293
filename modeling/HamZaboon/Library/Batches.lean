import Mathlib.Data.List.Basic
import Mathlib.Tactic.Common

/-! # Loops over batches

A loop that takes a list in batches, and looks before every entry and before
every batch whether it is done, ends in the same state as the loop over the
whole list, whatever the width of the batches (`foldBatches_eq`).
-/

namespace HamZaboon.Library

variable {σ α : Type} (stop : σ → Bool) (f : σ → α → σ)

/-- `for a in xs: if stop: break; …`. -/
def foldUntil : σ → List α → σ
  | s, [] => s
  | s, a :: xs => if stop s then s else foldUntil (f s a) xs

@[simp] theorem foldUntil_nil (s : σ) : foldUntil stop f s [] = s := rfl

variable {stop f}

theorem foldUntil_of_stop {s : σ} (h : stop s = true) (xs : List α) :
    foldUntil stop f s xs = s := by
  cases xs with
  | nil => rfl
  | cons a xs => rw [foldUntil, if_pos h]

theorem foldUntil_append (s : σ) (xs ys : List α) :
    foldUntil stop f s (xs ++ ys) = foldUntil stop f (foldUntil stop f s xs) ys := by
  induction xs generalizing s with
  | nil => rfl
  | cons a xs ih =>
    simp only [List.cons_append, foldUntil]
    split
    · rename_i h
      exact (foldUntil_of_stop h ys).symm
    · exact ih (f s a)

variable (stop f)

/-- `while idx < len(xs) and not stop: for a in xs[idx:idx+width]: …; idx += width`. -/
def foldBatches (width : Nat) (hwidth : 0 < width) (xs : List α) (idx : Nat) (s : σ) : σ :=
  if idx < xs.length ∧ stop s = false then
    foldBatches width hwidth xs (idx + width) (foldUntil stop f s ((xs.drop idx).take width))
  else s
termination_by xs.length - idx

/-- **Batches change nothing.** -/
theorem foldBatches_eq {width : Nat} (hwidth : 0 < width) (xs : List α) (idx : Nat) (s : σ) :
    foldBatches stop f width hwidth xs idx s = foldUntil stop f s (xs.drop idx) := by
  fun_induction foldBatches stop f width hwidth xs idx s with
  | case1 idx s h ih =>
    rw [ih, ← foldUntil_append, ← List.drop_drop, List.take_append_drop]
  | case2 idx s h =>
    by_cases hlt : idx < xs.length
    · have hstop : stop s = true := by
        rw [← Bool.not_eq_false]
        exact fun hs => h ⟨hlt, hs⟩
      exact (foldUntil_of_stop hstop _).symm
    · rw [List.drop_eq_nil_of_le (Nat.not_lt.mp hlt), foldUntil_nil]

end HamZaboon.Library
