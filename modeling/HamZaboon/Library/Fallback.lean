import Mathlib.Data.List.Basic
import Mathlib.Tactic.Common

/-! # One document on several paths

A document is read from the first path that holds one, and written to the first path
that takes it.  What was written is read back exactly when no earlier path keeps an
older document.
-/

namespace HamZaboon.Library

variable {δ : Type}

/-- The document of the first path that holds one. -/
def readFirst : List (Option δ) → Option δ
  | [] => none
  | some d :: _ => some d
  | none :: files => readFirst files

/-- The document on the first path that takes it; `none` if no path does. -/
def writeFirst (d : δ) : List (Option δ) → (Nat → Bool) → Option (List (Option δ))
  | [], _ => none
  | file :: files, ok =>
      if ok 0 then some (some d :: files)
      else (writeFirst d files fun i => ok (i + 1)).map (file :: ·)

/-- The first path that takes a document is not behind the first one that holds one. -/
def WriteReaches : List (Option δ) → (Nat → Bool) → Prop
  | [], _ => False
  | file :: files, ok => ok 0 = true ∨ file = none ∧ WriteReaches files fun i => ok (i + 1)

theorem WriteReaches.readFirst_write {d : δ} {files : List (Option δ)} {ok : Nat → Bool}
    (h : WriteReaches files ok) :
    ∃ files', writeFirst d files ok = some files' ∧ readFirst files' = some d := by
  induction files generalizing ok with
  | nil => cases h
  | cons file files ih =>
    unfold writeFirst
    cases hok : ok 0 with
    | true => exact ⟨_, rfl, rfl⟩
    | false =>
      rcases h with h | ⟨rfl, h⟩
      · rw [hok] at h
        cases h
      · obtain ⟨files', hfiles', hread⟩ := ih h
        exact ⟨none :: files', by simp [hfiles'], hread⟩

theorem readFirst_write_of_not_reaches {d : δ} {files files' : List (Option δ)} {ok : Nat → Bool}
    (h : ¬ WriteReaches files ok) (hwrite : writeFirst d files ok = some files') :
    readFirst files' = readFirst files ∧ readFirst files ≠ none := by
  induction files generalizing ok files' with
  | nil => cases hwrite
  | cons file files ih =>
    obtain ⟨hok, hrest⟩ := not_or.mp h
    unfold writeFirst at hwrite
    rw [if_neg hok] at hwrite
    obtain ⟨files'', hfiles'', rfl⟩ := Option.map_eq_some_iff.mp hwrite
    cases file with
    | some old => exact ⟨rfl, Option.some_ne_none old⟩
    | none =>
      simp only [readFirst]
      exact ih (fun hreaches => hrest ⟨rfl, hreaches⟩) hfiles''

theorem readFirst_write {d : δ} {files files' : List (Option δ)} {ok : Nat → Bool}
    (hwrite : writeFirst d files ok = some files') :
    readFirst files' = some d ∨ readFirst files' = readFirst files ∧ readFirst files ≠ none := by
  by_cases h : WriteReaches files ok
  · obtain ⟨written, hwritten, hread⟩ := h.readFirst_write (d := d)
    obtain rfl := Option.some.inj (hwritten.symm.trans hwrite)
    exact Or.inl hread
  · exact Or.inr (readFirst_write_of_not_reaches h hwrite)

theorem writeFirst_eq_none {d : δ} {files : List (Option δ)} {ok : Nat → Bool} :
    writeFirst d files ok = none ↔ ∀ i < files.length, ok i = false := by
  induction files generalizing ok with
  | nil => simp [writeFirst]
  | cons file files ih =>
    unfold writeFirst
    cases hok : ok 0 with
    | true =>
      refine iff_of_false (by simp) fun h => ?_
      rw [h 0 (Nat.zero_lt_succ _)] at hok
      cases hok
    | false =>
      rw [if_neg (by decide), Option.map_eq_none_iff, ih]
      constructor
      · intro h i hi
        cases i with
        | zero => exact hok
        | succ i => exact h i (Nat.lt_of_succ_lt_succ hi)
      · intro h i hi
        exact h (i + 1) (Nat.succ_lt_succ hi)

end HamZaboon.Library
