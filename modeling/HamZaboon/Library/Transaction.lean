import Mathlib.Tactic.Common

/-! # Transactions

A transaction body runs statements on an open connection: it sees the state it
has written itself, next to the one it began with, which a rollback returns to.
A statement may fail, and what it raises passes through the rest of the body.
`transaction` commits what a body that returns has written and rolls a raising
one back, so that a caller sees all of the writes or none.

`Spec` is the postcondition of a body that returns; its rules follow the body
statement by statement.
-/

namespace HamZaboon.Library

/-- A transaction body over states `σ`: from the state at its beginning and the
current one, a value or an exception, and the state it leaves. -/
def Tx (σ ε α : Type) := σ → σ → Except ε α × σ

namespace Tx
variable {σ ε α β : Type}

def pure (a : α) : Tx σ ε α := fun _ s => (.ok a, s)

/-- Go on with the value, unless there is none. -/
def bind (m : Tx σ ε α) (k : α → Tx σ ε β) : Tx σ ε β := fun start s =>
  match m start s with
  | (.ok a, s') => k a start s'
  | (.error e, s') => (.error e, s')

instance : Monad (Tx σ ε) where
  pure := Tx.pure
  bind := Tx.bind

def raise (e : ε) : Tx σ ε α := fun _ s => (.error e, s)

/-- A statement that reads; `e` when it fails. -/
def query (fails : Bool) (e : ε) (f : σ → α) : Tx σ ε α := fun _ s =>
  if fails then (.error e, s) else (.ok (f s), s)

/-- A statement that writes; `e` when it fails, with nothing written. -/
def exec (fails : Bool) (e : ε) (f : σ → σ) : Tx σ ε Unit := fun _ s =>
  if fails then (.error e, s) else (.ok (), f s)

/-- Back to the state at the beginning. -/
def rollback : Tx σ ε Unit := fun start _ => (.ok (), start)

/-- `BEGIN`, the body, and `COMMIT`; an exception of any of them rolls back. -/
def transaction (beginFails commitFails : Bool) (e : ε) (body : Tx σ ε α) (db : σ) :
    Except ε α × σ :=
  if beginFails then (.error e, db)
  else
    match body db db with
    | (.ok a, s) => if commitFails then (.error e, db) else (.ok a, s)
    | (.error e, _) => (.error e, db)

/-! ## Postconditions -/

/-- When the body returns `a` and leaves `s'`, they satisfy `Q`. -/
def Spec (m : Tx σ ε α) (start s : σ) (Q : α → σ → Prop) : Prop :=
  ∀ a s', m start s = (.ok a, s') → Q a s'

variable {start s : σ}

theorem spec_pure {a : α} {Q : α → σ → Prop} (h : Q a s) :
    Spec (Pure.pure a : Tx σ ε α) start s Q := by
  intro b s' hrun
  obtain ⟨ha, rfl⟩ := Prod.mk.inj hrun
  obtain rfl := Except.ok.inj ha
  exact h

theorem spec_raise (e : ε) (Q : α → σ → Prop) : Spec (raise e : Tx σ ε α) start s Q := by
  intro a s' hrun
  cases (Prod.mk.inj hrun).1

theorem spec_bind {m : Tx σ ε α} {k : α → Tx σ ε β} {Q : β → σ → Prop}
    (h : Spec m start s (fun a s' => Spec (k a) start s' Q)) : Spec (m >>= k) start s Q := by
  intro b s'' hrun
  have hbind : (m >>= k) start s = match m start s with
    | (.ok a, s') => k a start s'
    | (.error e, s') => (.error e, s') := rfl
  rw [hbind] at hrun
  cases hm : m start s with
  | mk r s' =>
    rw [hm] at hrun
    cases r with
    | error e => cases (Prod.mk.inj hrun).1
    | ok a => exact h a s' hm b s'' hrun

theorem spec_query {fails : Bool} {e : ε} {f : σ → α} {Q : α → σ → Prop} (h : Q (f s) s) :
    Spec (query fails e f) start s Q := by
  intro a s' hrun
  unfold query at hrun
  split at hrun
  · cases (Prod.mk.inj hrun).1
  · obtain ⟨ha, rfl⟩ := Prod.mk.inj hrun
    obtain rfl := Except.ok.inj ha
    exact h

theorem spec_exec {fails : Bool} {e : ε} {f : σ → σ} {Q : Unit → σ → Prop} (h : Q () (f s)) :
    Spec (exec fails e f) start s Q := by
  intro a s' hrun
  unfold exec at hrun
  split at hrun
  · cases (Prod.mk.inj hrun).1
  · obtain ⟨-, rfl⟩ := Prod.mk.inj hrun
    exact h

theorem spec_rollback {Q : Unit → σ → Prop} (h : Q () start) :
    Spec (rollback : Tx σ ε Unit) start s Q := by
  intro a s' hrun
  obtain ⟨-, rfl⟩ := Prod.mk.inj hrun
  exact h

/-- **All or nothing**: a transaction that raises leaves the database as it was,
and one that returns leaves what its body left. -/
theorem transaction_cases (beginFails commitFails : Bool) (e : ε) {body : Tx σ ε α} {db : σ}
    {Q : α → σ → Prop} (h : Spec body db db Q) :
    (∃ e', transaction beginFails commitFails e body db = (.error e', db)) ∨
      ∃ a s, transaction beginFails commitFails e body db = (.ok a, s) ∧ Q a s := by
  unfold transaction
  split
  · exact Or.inl ⟨e, rfl⟩
  · cases hrun : body db db with
    | mk r s =>
      cases r with
      | error e' => exact Or.inl ⟨e', rfl⟩
      | ok a =>
        simp only
        split
        · exact Or.inl ⟨e, rfl⟩
        · exact Or.inr ⟨a, s, rfl, h a s hrun⟩

/-! ## Statements that do not fail -/

@[simp] theorem bind_apply (m : Tx σ ε α) (k : α → Tx σ ε β) (start s : σ) :
    (m >>= k) start s = match m start s with
      | (.ok a, s') => k a start s'
      | (.error e, s') => (.error e, s') := rfl

@[simp] theorem pure_apply (a : α) (start s : σ) :
    (Pure.pure a : Tx σ ε α) start s = (.ok a, s) := rfl

@[simp] theorem query_apply (e : ε) (f : σ → α) (start s : σ) :
    query false e f start s = (.ok (f s), s) := rfl

@[simp] theorem exec_apply (e : ε) (f : σ → σ) (start s : σ) :
    exec false e f start s = (.ok (), f s) := rfl

end Tx

end HamZaboon.Library
