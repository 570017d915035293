import Mathlib.Data.List.GetD
import Mathlib.Tactic.Common

/-! # Computations that draw at random

A random source is the sequence of numbers it will deliver.  A `Draw` consumes
a prefix of it and may raise; it is `Total` when it returns from every source,
which is what the rules below establish for a computation from its parts.
-/

namespace HamZaboon.Library

abbrev Source := Nat → Nat

/-- A computation that draws from a source and may raise an `ε`. -/
abbrev Draw (ε α : Type) := Source → Except ε (α × Source)

namespace Draw
variable {ε α β : Type}

def pure (a : α) : Draw ε α := fun r => .ok (a, r)

def raise (e : ε) : Draw ε α := fun _ => .error e

def bind (m : Draw ε α) (f : α → Draw ε β) : Draw ε β := fun r =>
  match m r with
  | .ok (a, r') => f a r'
  | .error e => .error e

instance : Monad (Draw ε) where
  pure := Draw.pure
  bind := Draw.bind

/-- A number below `n`; `e` when there is none. -/
def below (e : ε) (n : Nat) : Draw ε Nat := fun r =>
  if n = 0 then .error e else .ok (r 0 % n, fun i => r (i + 1))

/-- An element of the list; `e` when there is none. -/
def oneOf (e : ε) (xs : List α) : Draw ε α :=
  match xs with
  | [] => raise e
  | x :: rest => (below e (rest.length + 1)).bind fun i => Draw.pure ((x :: rest).getD i x)

/-- `k` elements at different positions; `e` when the list is too short. -/
def sample (e : ε) : Nat → List α → Draw ε (List α)
  | 0, _ => Draw.pure []
  | _ + 1, [] => raise e
  | k + 1, x :: rest =>
      (below e (rest.length + 1)).bind fun i =>
        (sample e k ((x :: rest).eraseIdx i)).bind fun drawn =>
          Draw.pure ((x :: rest).getD i x :: drawn)

/-- The computation returns, whatever the source delivers. -/
def Total (m : Draw ε α) : Prop := ∀ r, ∃ a r', m r = .ok (a, r')

/-- The computation raises, whatever the source delivers. -/
def Fails (m : Draw ε α) : Prop := ∀ r, ∃ e, m r = .error e

theorem total_pure (a : α) : (Draw.pure a : Draw ε α).Total := fun r => ⟨a, r, rfl⟩

theorem Total.bind {m : Draw ε α} {f : α → Draw ε β} (hm : m.Total) (hf : ∀ a, (f a).Total) :
    (m.bind f).Total := by
  intro r
  obtain ⟨a, r', h⟩ := hm r
  obtain ⟨b, r'', h'⟩ := hf a r'
  exact ⟨b, r'', by simp only [Draw.bind, h, h']⟩

theorem Total.bind_of {P : α → Prop} {m : Draw ε α} {f : α → Draw ε β} (hm : m.Total)
    (hP : ∀ r a r', m r = .ok (a, r') → P a) (hf : ∀ a, P a → (f a).Total) :
    (m.bind f).Total := by
  intro r
  obtain ⟨a, r', h⟩ := hm r
  obtain ⟨b, r'', h'⟩ := hf a (hP r a r' h) r'
  exact ⟨b, r'', by simp only [Draw.bind, h, h']⟩

theorem Fails.bind {m : Draw ε α} (f : α → Draw ε β) (hm : m.Fails) : (m.bind f).Fails := by
  intro r
  obtain ⟨e, h⟩ := hm r
  exact ⟨e, by simp only [Draw.bind, h]⟩

theorem total_below (e : ε) {n : Nat} (h : 0 < n) : (below e n).Total := by
  intro r
  exact ⟨r 0 % n, fun i => r (i + 1), if_neg (Nat.pos_iff_ne_zero.mp h)⟩

theorem total_oneOf (e : ε) {xs : List α} (h : xs ≠ []) : (oneOf e xs).Total := by
  cases xs with
  | nil => exact absurd rfl h
  | cons x rest =>
    unfold oneOf
    exact (total_below e (Nat.succ_pos _)).bind fun i => total_pure _

theorem fails_oneOf (e : ε) : (oneOf e ([] : List α)).Fails := fun _ => ⟨e, rfl⟩

theorem below_lt {e : ε} {n : Nat} {r r' : Source} {i : Nat} (h : below e n r = .ok (i, r')) :
    i < n := by
  unfold below at h
  split at h
  · cases h
  · rename_i hn
    obtain ⟨rfl, -⟩ := Prod.mk.inj (Except.ok.inj h)
    exact Nat.mod_lt _ (Nat.pos_of_ne_zero hn)

theorem mem_of_oneOf {e : ε} {xs : List α} {r r' : Source} {a : α}
    (h : oneOf e xs r = .ok (a, r')) : a ∈ xs := by
  cases xs with
  | nil => cases h
  | cons x rest =>
    simp only [oneOf, Draw.bind] at h
    split at h
    · rename_i i _ hi
      obtain ⟨rfl, -⟩ := Prod.mk.inj (Except.ok.inj h)
      have hlt : i < (x :: rest).length := below_lt hi
      rw [List.getD_eq_getElem _ _ hlt]
      exact List.getElem_mem hlt
    · cases h

theorem total_sample (e : ε) (k : Nat) (xs : List α) (h : k ≤ xs.length) :
    (sample e k xs).Total := by
  induction k generalizing xs with
  | zero => exact total_pure _
  | succ k ih =>
    cases xs with
    | nil => exact absurd h (Nat.not_succ_le_zero k)
    | cons x rest =>
      refine (total_below e (Nat.succ_pos _)).bind_of (fun r a r' => below_lt) fun i hi => ?_
      refine (ih _ ?_).bind fun drawn => total_pure _
      rw [List.length_eraseIdx_of_lt hi]
      exact Nat.le_sub_one_of_lt h

end Draw

end HamZaboon.Library
