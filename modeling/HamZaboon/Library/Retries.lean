import Mathlib.Tactic.Common

/-! # Attempts at an action

An action on a state that returns or fails is tried until it returns, until it fails in a
way that is not tried again, or until the attempts are used up: then the last failure is
the result.  What every failed attempt keeps holds before the next one, so a result comes
from one attempt made in such a state (`attempts_rule`).
-/

namespace HamZaboon.Library

variable {σ ε α : Type} (again : ε → Bool) (act : Nat → σ → Except ε α × σ)

/-- One attempt, the `n`-th, and after it up to `more` others. -/
def attempts : Nat → Nat → σ → Except ε α × σ
  | 0, n, s => act n s
  | more + 1, n, s =>
      match act n s with
      | (.ok a, s') => (.ok a, s')
      | (.error e, s') => if again e then attempts more (n + 1) s' else (.error e, s')

theorem attempts_of_ok {more n : Nat} {s : σ} {a : α} (h : (act n s).1 = .ok a) :
    attempts again act more n s = act n s := by
  cases more with
  | zero => rfl
  | succ more =>
    unfold attempts
    split
    · rename_i hact
      exact hact.symm
    · rename_i hact
      rw [hact] at h
      cases h

/-- The result is that of one attempt, made in a state that the failed ones keep. -/
theorem attempts_rule {I : σ → Prop}
    (hfail : ∀ n s e, I s → (act n s).1 = .error e → I (act n s).2) (more n : Nat) {s : σ}
    (hs : I s) :
    ∃ n' s', I s' ∧ attempts again act more n s = act n' s' := by
  induction more generalizing n s with
  | zero => exact ⟨n, s, hs, rfl⟩
  | succ more ih =>
    unfold attempts
    split
    · rename_i a s' hact
      exact ⟨n, s, hs, hact.symm⟩
    · rename_i e s' hact
      have hs' : I s' := by simpa only [hact] using hfail n s e hs (by rw [hact])
      split
      · exact ih (n + 1) hs'
      · exact ⟨n, s, hs, hact.symm⟩

end HamZaboon.Library
