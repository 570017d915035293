import HamZaboon.Library.Trim

/-! # Patterns of a regular expression

A pattern takes the text ahead, and a pattern for what follows it.  Where it can match
in several ways they are tried in the order of a backtracking engine, and the first one
behind which the rest matches counts; so a pattern can return what a group has taken.
-/

namespace HamZaboon.Library

/-- What a pattern makes of the text ahead. -/
abbrev Pattern (β : Type) := List Char → Option β

namespace Pattern
variable {β : Type}

/-- A literal, up to `same`. -/
def lit (same : Char → Char → Bool) : List Char → Pattern β → Pattern β
  | [], k, s => k s
  | _ :: _, _, [] => none
  | w :: word, k, c :: s => if same w c then lit same word k s else none

/-- `p*`, as many as possible. -/
def many (p : Char → Bool) (k : Pattern β) : Pattern β
  | [] => k []
  | c :: s => if p c then (many p k s).orElse fun _ => k (c :: s) else k (c :: s)

/-- `p+`. -/
def plus (p : Char → Bool) (k : Pattern β) : Pattern β
  | [] => none
  | c :: s => if p c then many p k s else none

/-- `(p+?)` behind the characters that it has taken. -/
def lazyFrom (p : Char → Bool) (k : List Char → Pattern β) (taken : List Char) : Pattern β
  | [] => none
  | c :: s =>
    if p c then (k (taken ++ [c]) s).orElse fun _ => lazyFrom p k (taken ++ [c]) s else none

/-- `(p+?)`, a group with as few as possible. -/
def lazyPlus (p : Char → Bool) (k : List Char → Pattern β) : Pattern β := lazyFrom p k []

/-- `a|b|…`. -/
def oneOf (ps : List (Pattern β)) : Pattern β := fun s => ps.findSome? (· s)

/-- `(?:p)?`. -/
def maybe (p : Pattern β → Pattern β) (k : Pattern β) : Pattern β := oneOf [p k, k]

/-- Words with `p+` between them. -/
def words (same : Char → Char → Bool) (p : Char → Bool) : List String → Pattern β → Pattern β
  | [], k => k
  | [w], k => lit same w.toList k
  | w :: ws, k => lit same w.toList (plus p (words same p ws k))

/-- `$`. -/
def close (b : β) : Pattern β := fun s => if s = [] then some b else none

/-- `\b` behind a character of a word. -/
def wordEnd (isWord : Char → Bool) (b : β) : Pattern β :=
  fun s => if s.head?.any isWord then none else some b

/-- `re.search` of a pattern that sees the character before it. -/
def search (p : Option Char → Pattern β) (before : Option Char) : Pattern β
  | [] => p before []
  | c :: s => (p before (c :: s)).orElse fun _ => search p (some c) s

variable {k : Pattern β} {s : List Char} {b : β}

theorem lit_eq_some {word : List Char} :
    lit (fun a b => a = b) word k s = some b ↔ ∃ r, s = word ++ r ∧ k r = some b := by
  induction word generalizing s with
  | nil => simp [lit]
  | cons w word ih =>
    cases s with
    | nil => simp [lit]
    | cons c s =>
      by_cases hwc : w = c
      · subst hwc
        simp [lit, ih]
      · simp [lit, hwc, Ne.symm hwc]

theorem search_eq_some {before : Option Char} (h : search (fun _ => k) before s = some b) :
    ∃ a r, s = a ++ r ∧ k r = some b ∧
      ∀ a' r', s = a' ++ r' → (k r').isSome = true → a.length ≤ a'.length := by
  induction s generalizing before with
  | nil => exact ⟨[], [], rfl, h, fun _ _ _ _ => Nat.zero_le _⟩
  | cons c s ih =>
    rw [search] at h
    cases hhere : k (c :: s) with
    | some b' =>
      rw [hhere] at h
      exact ⟨[], c :: s, rfl, hhere.trans h, fun _ _ _ _ => Nat.zero_le _⟩
    | none =>
      rw [hhere] at h
      obtain ⟨a, r, rfl, hmatch, hleft⟩ := ih h
      refine ⟨c :: a, r, rfl, hmatch, fun a' r' heq hsome => ?_⟩
      cases a' with
      | nil =>
        rw [List.nil_append] at heq
        rw [← heq, hhere] at hsome
        cases hsome
      | cons c' a' =>
        rw [List.cons_append] at heq
        exact Nat.succ_le_succ (hleft a' r' (List.cons.inj heq).2 hsome)

theorem search_eq_none {before : Option Char} (h : search (fun _ => k) before s = none)
    {a r : List Char} (heq : s = a ++ r) : k r = none := by
  induction s generalizing before a with
  | nil =>
    obtain ⟨rfl, rfl⟩ := List.append_eq_nil_iff.mp heq.symm
    exact h
  | cons c s ih =>
    rw [search] at h
    obtain ⟨hhere, hrest⟩ : k (c :: s) = none ∧ search (fun _ => k) (some c) s = none := by
      cases hhere : k (c :: s) with
      | some b =>
        rw [hhere] at h
        cases h
      | none =>
        rw [hhere] at h
        exact ⟨rfl, h⟩
    cases a with
    | nil =>
      rw [List.nil_append] at heq
      exact heq ▸ hhere
    | cons c' a => exact ih hrest (List.cons.inj heq).2

end Pattern

end HamZaboon.Library
