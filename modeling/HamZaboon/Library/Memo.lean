import HamZaboon.Library.Latest

/-! # Memos with a tag

A memo keeps for each key the last value computed for it, together with a tag of what it
was computed from, and forgets its oldest key when it is full.  A value is answered from
the memo where the tag still fits; nothing else of what it was computed from is looked at.
So the memo answers what would be computed exactly where a tag that fits tells no two
origins apart that matter (`ask_iff`).
-/

namespace HamZaboon.Library

/-- A memo: keys with a tag and a value, the oldest key first. -/
abbrev Memo (κ τ β : Type) := List (κ × τ × β)

namespace Memo
variable {κ τ β : Type} [DecidableEq κ] [DecidableEq τ]

/-- Room for a key: where the memo is full and does not know it, the oldest key goes. -/
def makeRoom (cap : Nat) (key : κ) (memo : Memo κ τ β) : Memo κ τ β :=
  if cap ≤ memo.length ∧ key ∉ memo.map (·.1) then memo.drop 1 else memo

/-- The value for a key, from the memo where its tag fits and else the one computed. -/
def ask (cap : Nat) (memo : Memo κ τ β) (key : κ) (tag : τ) (value : β) : β × Memo κ τ β :=
  match memo.lookup key with
  | some (tag', held) =>
      if tag' = tag then (held, memo)
      else (value, setEntry (memo.makeRoom cap key) key (tag, value))
  | none => (value, setEntry (memo.makeRoom cap key) key (tag, value))

/-- The memo answers a value for a key and a tag. -/
def Holds (memo : Memo κ τ β) (key : κ) (tag : τ) (held : β) : Prop :=
  memo.lookup key = some (tag, held)

variable {cap : Nat} {memo : Memo κ τ β} {key : κ} {tag : τ} {value : β}

theorem ask_of_hit {held : β} (h : memo.Holds key tag held) :
    memo.ask cap key tag value = (held, memo) := by
  rw [ask, show memo.lookup key = some (tag, held) from h]
  exact if_pos rfl

theorem ask_of_miss (h : ∀ held, ¬ memo.Holds key tag held) :
    memo.ask cap key tag value = (value, setEntry (memo.makeRoom cap key) key (tag, value)) := by
  unfold ask
  split
  · rename_i tag' held hfound
    refine if_neg ?_
    rintro rfl
    exact h held hfound
  · rfl

variable (cap memo key tag value) in
theorem fst_ask : (∃ held, memo.Holds key tag held ∧ (memo.ask cap key tag value).1 = held) ∨
    (∀ held, ¬ memo.Holds key tag held) ∧ (memo.ask cap key tag value).1 = value := by
  by_cases h : ∃ held, memo.Holds key tag held
  · obtain ⟨held, hfound⟩ := h
    exact Or.inl ⟨held, hfound, by rw [ask_of_hit hfound]⟩
  · have hmiss := not_exists.mp h
    exact Or.inr ⟨hmiss, by rw [ask_of_miss hmiss]⟩

variable (cap memo key tag value) in
/-- The answer is as good as the computed value where what is held with this tag is. -/
theorem ask_iff {R : β → Prop} (hvalue : R value) :
    R (memo.ask cap key tag value).1 ↔ ∀ held, memo.Holds key tag held → R held := by
  rcases fst_ask cap memo key tag value with ⟨held, hfound, heq⟩ | ⟨hmiss, heq⟩
  · rw [heq]
    constructor
    · intro hheld held' hfound'
      obtain ⟨-, rfl⟩ := Prod.mk.inj (Option.some.inj ((Eq.symm hfound).trans hfound'))
      exact hheld
    · exact fun h => h held hfound
  · rw [heq]
    exact ⟨fun _ held hfound => absurd hfound (hmiss held), fun _ => hvalue⟩

end Memo

end HamZaboon.Library
