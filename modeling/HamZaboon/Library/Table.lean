import Mathlib.Data.List.Nodup
import Mathlib.Data.List.Basic
import Mathlib.Tactic.Common

/-! # Tables that carry their own key constraint

A relational table is a list of rows together with the proof that its key is
respected, so that a table with two rows under one key cannot be built.  Two
kinds are needed:

* `SerialTable`: rows numbered by an `AUTOINCREMENT` key.  Rows stand in key
  order, keys are positive and never reused (`seq` only grows);
* `KeyedTable`: rows under an arbitrary primary key.

Statements are the ones of SQL: `insert`, `insertOrIgnore`, `upsert`,
`deleteWhere`, `updateWhere`.  Each preserves the constraint by construction.
-/

namespace HamZaboon.Library

/-! ## Rows numbered by an autoincrement key -/

/-- A table whose integer key is handed out by the table itself. -/
structure SerialTable (ρ : Type) (key : ρ → Nat) where
  rows : List ρ
  /-- The largest key ever handed out. -/
  seq : Nat
  sorted : rows.Pairwise (fun a b => key a < key b)
  positive : ∀ r ∈ rows, 0 < key r
  below : ∀ r ∈ rows, key r ≤ seq

namespace SerialTable
variable {ρ : Type} {key : ρ → Nat}

def empty : SerialTable ρ key :=
  ⟨[], 0, List.Pairwise.nil, by simp, by simp⟩

/-- `INSERT`: the new row gets the next key. -/
def insert (t : SerialTable ρ key) (mk : Nat → ρ) (hmk : ∀ n, key (mk n) = n) :
    SerialTable ρ key where
  rows := t.rows ++ [mk (t.seq + 1)]
  seq := t.seq + 1
  sorted := by
    refine List.pairwise_append.mpr ⟨t.sorted, List.pairwise_singleton _ _, ?_⟩
    intro a ha b hb
    rw [List.mem_singleton.mp hb, hmk]
    exact Nat.lt_succ_of_le (t.below a ha)
  positive := by
    intro r hr
    rcases List.mem_append.mp hr with h | h
    · exact t.positive r h
    · rw [List.mem_singleton.mp h, hmk]; exact Nat.succ_pos _
  below := by
    intro r hr
    rcases List.mem_append.mp hr with h | h
    · exact Nat.le_succ_of_le (t.below r h)
    · exact Nat.le_of_eq (by rw [List.mem_singleton.mp h, hmk])

/-- `DELETE … WHERE p`. -/
def deleteWhere (t : SerialTable ρ key) (p : ρ → Bool) : SerialTable ρ key where
  rows := t.rows.filter (fun r => !p r)
  seq := t.seq
  sorted := t.sorted.filter _
  positive := fun r hr => t.positive r (List.mem_of_mem_filter hr)
  below := fun r hr => t.below r (List.mem_of_mem_filter hr)

/-- `UPDATE … SET f WHERE p`, for an `f` that leaves the key alone. -/
def updateWhere (t : SerialTable ρ key) (p : ρ → Bool) (f : ρ → ρ)
    (hf : ∀ r, key (f r) = key r) : SerialTable ρ key where
  rows := t.rows.map (fun r => if p r then f r else r)
  seq := t.seq
  sorted := by
    refine List.pairwise_map.mpr (t.sorted.imp ?_)
    intro a b hab
    split <;> split <;> simpa only [hf] using hab
  positive := by
    intro r hr
    obtain ⟨x, hx, rfl⟩ := List.mem_map.mp hr
    split <;> simpa only [hf] using t.positive x hx
  below := by
    intro r hr
    obtain ⟨x, hx, rfl⟩ := List.mem_map.mp hr
    split <;> simpa only [hf] using t.below x hx

@[simp] theorem rows_empty : (empty : SerialTable ρ key).rows = [] := rfl

@[simp] theorem rows_deleteWhere (t : SerialTable ρ key) (p : ρ → Bool) :
    (t.deleteWhere p).rows = t.rows.filter (fun r => !p r) := rfl

@[simp] theorem rows_updateWhere (t : SerialTable ρ key) (p : ρ → Bool) (f : ρ → ρ)
    (hf : ∀ r, key (f r) = key r) :
    (t.updateWhere p f hf).rows = t.rows.map (fun r => if p r then f r else r) := rfl

theorem nodup_keys (t : SerialTable ρ key) : (t.rows.map key).Nodup :=
  List.pairwise_map.mpr (t.sorted.imp fun h => Nat.ne_of_lt h)

theorem key_injective (t : SerialTable ρ key) {a b : ρ} (ha : a ∈ t.rows) (hb : b ∈ t.rows)
    (h : key a = key b) : a = b :=
  List.inj_on_of_nodup_map t.nodup_keys ha hb h

theorem filter_any_key (t : SerialTable ρ key) {l : List ρ} (h : l.Sublist t.rows) :
    t.rows.filter (fun r => l.any (fun x => key x = key r)) = l := by
  have hmem : ∀ r, r ∈ t.rows.filter (fun r => l.any (fun x => key x = key r)) ↔ r ∈ l := by
    intro r
    simp only [List.mem_filter, List.any_eq_true, decide_eq_true_eq]
    constructor
    · rintro ⟨hr, x, hx, hk⟩
      exact t.key_injective (h.subset hx) hr hk ▸ hx
    · exact fun hr => ⟨h.subset hr, r, hr, rfl⟩
  have hsort : ∀ {m : List ρ}, m.Sublist t.rows → m.Pairwise (fun a b => key a < key b) :=
    fun hm => t.sorted.sublist hm
  have nodup : ∀ {m : List ρ}, m.Sublist t.rows → m.Nodup :=
    fun hm => (hsort hm).imp (fun hlt heq => absurd (heq ▸ hlt) (Nat.lt_irrefl _))
  have hperm := (List.perm_ext_iff_of_nodup (nodup List.filter_sublist) (nodup h)).mpr hmem
  exact hperm.eq_of_pairwise (fun a b _ _ hab hba => absurd hab (Nat.lt_asymm hba))
    (hsort List.filter_sublist) (hsort h)

theorem find?_eq_some (t : SerialTable ρ key) {p : ρ → Bool} {r : ρ} (hr : r ∈ t.rows)
    (hp : p r = true) (hkey : ∀ x ∈ t.rows, p x = true → key x = key r) :
    t.rows.find? p = some r := by
  cases h : t.rows.find? p with
  | none => exact absurd hp (List.find?_eq_none.mp h r hr)
  | some x =>
    have hx := List.mem_of_find?_eq_some h
    rw [t.key_injective hx hr (hkey x hx (List.find?_some h))]

end SerialTable

/-! ## Rows under a primary key -/

/-- A table with an arbitrary primary key. -/
structure KeyedTable (κ ρ : Type) (key : ρ → κ) where
  rows : List ρ
  pk : (rows.map key).Nodup

namespace KeyedTable
variable {κ ρ : Type} {key : ρ → κ}

def empty : KeyedTable κ ρ key := ⟨[], List.nodup_nil⟩

/-- `DELETE … WHERE p`. -/
def deleteWhere (t : KeyedTable κ ρ key) (p : ρ → Bool) : KeyedTable κ ρ key where
  rows := t.rows.filter (fun r => !p r)
  pk := t.pk.sublist (List.filter_sublist.map key)

/-- `UPDATE … SET f WHERE p`, for an `f` that leaves the key alone. -/
def updateWhere (t : KeyedTable κ ρ key) (p : ρ → Bool) (f : ρ → ρ)
    (hf : ∀ r, key (f r) = key r) : KeyedTable κ ρ key where
  rows := t.rows.map (fun r => if p r then f r else r)
  pk := by
    have hkey : (t.rows.map (fun r => if p r then f r else r)).map key = t.rows.map key := by
      rw [List.map_map]
      refine List.map_congr_left (fun r _ => ?_)
      simp only [Function.comp]
      split
      · exact hf r
      · rfl
    rw [hkey]
    exact t.pk

@[simp] theorem rows_empty : (empty : KeyedTable κ ρ key).rows = [] := rfl

@[simp] theorem rows_deleteWhere (t : KeyedTable κ ρ key) (p : ρ → Bool) :
    (t.deleteWhere p).rows = t.rows.filter (fun r => !p r) := rfl

@[simp] theorem rows_updateWhere (t : KeyedTable κ ρ key) (p : ρ → Bool) (f : ρ → ρ)
    (hf : ∀ r, key (f r) = key r) :
    (t.updateWhere p f hf).rows = t.rows.map (fun r => if p r then f r else r) := rfl

theorem updateWhere_eq_self {t : KeyedTable κ ρ key} {p : ρ → Bool} {f : ρ → ρ}
    (hf : ∀ r, key (f r) = key r) (h : ∀ r ∈ t.rows, p r = false) : t.updateWhere p f hf = t := by
  have hrows : t.rows.map (fun r => if p r then f r else r) = t.rows := by
    conv_rhs => rw [← List.map_id t.rows]
    refine List.map_congr_left (fun r hr => ?_)
    rw [h r hr]
    rfl
  obtain ⟨rows, pk⟩ := t
  unfold updateWhere
  congr

variable [DecidableEq κ]

/-- `SELECT … WHERE key = k`: at most one row, by the key constraint. -/
def lookup (t : KeyedTable κ ρ key) (k : κ) : Option ρ := t.rows.find? (fun r => key r = k)

/-- Whether some row has the key `k`. -/
def has (t : KeyedTable κ ρ key) (k : κ) : Bool := t.rows.any (fun r => key r = k)

theorem has_iff {t : KeyedTable κ ρ key} {k : κ} : t.has k = true ↔ ∃ r ∈ t.rows, key r = k := by
  simp [has]

/-- `INSERT … ON CONFLICT DO NOTHING`. -/
def insertOrIgnore (t : KeyedTable κ ρ key) (r : ρ) : KeyedTable κ ρ key :=
  if h : t.has (key r) = true then t
  else
    { rows := t.rows ++ [r]
      pk := by
        rw [List.map_append]
        refine List.nodup_append'.mpr ⟨t.pk, List.nodup_singleton _, ?_⟩
        intro k hk hk'
        obtain ⟨x, hx, rfl⟩ := List.mem_map.mp hk
        rw [List.map_singleton, List.mem_singleton] at hk'
        exact h (has_iff.mpr ⟨x, hx, hk'⟩) }

/-- `INSERT … ON CONFLICT DO UPDATE SET f`. -/
def upsert (t : KeyedTable κ ρ key) (r : ρ) (f : ρ → ρ) (hf : ∀ x, key (f x) = key x) :
    KeyedTable κ ρ key :=
  if t.has (key r) = true then t.updateWhere (fun x => key x = key r) f hf
  else t.insertOrIgnore r

theorem rows_insertOrIgnore (t : KeyedTable κ ρ key) (r : ρ) :
    (t.insertOrIgnore r).rows = if t.has (key r) then t.rows else t.rows ++ [r] := by
  unfold insertOrIgnore
  split <;> rfl

theorem rows_upsert (t : KeyedTable κ ρ key) (r : ρ) (f : ρ → ρ) (hf : ∀ x, key (f x) = key x) :
    (t.upsert r f hf).rows =
      if t.has (key r) then t.rows.map (fun x => if key x = key r then f x else x)
      else t.rows ++ [r] := by
  unfold upsert
  split
  · simp
  · rename_i h
    rw [rows_insertOrIgnore, if_neg h]

theorem countP_key {t : KeyedTable κ ρ key} {k : κ} (h : t.has k = true) :
    t.rows.countP (fun r => key r = k) = 1 := by
  have hmem : k ∈ t.rows.map key := by
    obtain ⟨r, hr, hk⟩ := has_iff.mp h
    exact List.mem_map.mpr ⟨r, hr, hk⟩
  have hcount := List.count_eq_one_of_mem t.pk hmem
  rw [List.count_eq_countP, List.countP_map] at hcount
  rw [← hcount]
  refine List.countP_congr fun r _ => ?_
  simp

/-! ### Reading after writing -/

theorem lookup_updateWhere (t : KeyedTable κ ρ key) (p : ρ → Bool) (f : ρ → ρ)
    (hf : ∀ r, key (f r) = key r) (k : κ) :
    (t.updateWhere p f hf).lookup k = (t.lookup k).map (fun r => if p r then f r else r) := by
  unfold lookup
  rw [rows_updateWhere, List.find?_map]
  congr 2
  funext r
  simp only [Function.comp]
  split
  · rw [hf]
  · rfl

theorem lookup_eq_none {t : KeyedTable κ ρ key} {k : κ} :
    t.lookup k = none ↔ t.has k = false := by
  rw [← Bool.not_eq_true, has_iff, lookup, List.find?_eq_none]
  simp

theorem key_of_lookup {t : KeyedTable κ ρ key} {k : κ} {r : ρ} (h : t.lookup k = some r) :
    key r = k := by
  unfold lookup at h
  exact of_decide_eq_true (List.find?_some (p := fun r => decide (key r = k)) h)

theorem mem_of_lookup {t : KeyedTable κ ρ key} {k : κ} {r : ρ} (h : t.lookup k = some r) :
    r ∈ t.rows :=
  List.mem_of_find?_eq_some h

theorem lookup_deleteWhere_key (t : KeyedTable κ ρ key) (k' k : κ) :
    (t.deleteWhere fun r => key r = k').lookup k = if k = k' then none else t.lookup k := by
  unfold lookup
  rw [rows_deleteWhere, List.find?_filter]
  split
  · rename_i h
    rw [List.find?_eq_none]
    simp [h]
  · rename_i h
    refine congrArg (fun p => t.rows.find? p) (funext fun r => ?_)
    by_cases hk : key r = k <;> simp [hk, h]

theorem has_iff_lookup {t : KeyedTable κ ρ key} {k : κ} :
    t.has k = true ↔ ∃ r, t.lookup k = some r := by
  rw [← Option.ne_none_iff_exists', Ne, lookup_eq_none, Bool.not_eq_false]

theorem lookup_of_mem {t : KeyedTable κ ρ key} {r : ρ} (h : r ∈ t.rows) :
    t.lookup (key r) = some r := by
  cases hl : t.lookup (key r) with
  | none =>
    have hne := List.find?_eq_none.mp hl r h
    simp at hne
  | some x =>
    rw [List.inj_on_of_nodup_map t.pk (mem_of_lookup hl) h (key_of_lookup hl)]

theorem lookup_insertOrIgnore (t : KeyedTable κ ρ key) (r : ρ) (k : κ) :
    (t.insertOrIgnore r).lookup k = (t.lookup k).or (if key r = k then some r else none) := by
  unfold lookup
  rw [rows_insertOrIgnore]
  split
  · rename_i h
    by_cases hk : key r = k
    · obtain ⟨x, hx⟩ : ∃ x, t.rows.find? (fun y => key y = k) = some x := by
        rw [← hk]
        have hne : t.lookup (key r) ≠ none := by
          rw [Ne, lookup_eq_none, h]
          exact Bool.noConfusion
        exact Option.ne_none_iff_exists'.mp hne
      rw [hx]
      rfl
    · rw [if_neg hk, Option.or_none]
  · rw [List.find?_append]
    by_cases hk : key r = k <;> simp [hk]

theorem lookup_upsert (t : KeyedTable κ ρ key) (r : ρ) (f : ρ → ρ) (hf : ∀ x, key (f x) = key x)
    (k : κ) :
    (t.upsert r f hf).lookup k =
      if key r = k then some ((t.lookup k).elim r f) else t.lookup k := by
  unfold upsert
  split
  · rename_i h
    rw [lookup_updateWhere]
    by_cases hk : key r = k
    · rw [if_pos hk]
      cases hl : t.lookup k with
      | none =>
        rw [lookup_eq_none, ← hk, h] at hl
        cases hl
      | some x =>
        rw [Option.map_some, if_pos (decide_eq_true ((key_of_lookup hl).trans hk.symm))]
        rfl
    · rw [if_neg hk]
      cases hl : t.lookup k with
      | none => rfl
      | some x =>
        rw [Option.map_some, if_neg]
        simpa [key_of_lookup hl] using fun h : k = key r => hk h.symm
  · rename_i h
    rw [lookup_insertOrIgnore]
    by_cases hk : key r = k
    · have hnone : t.lookup k = none := by
        rw [lookup_eq_none, ← hk]
        simpa using h
      rw [if_pos hk, if_pos hk, hnone]
      rfl
    · rw [if_neg hk, if_neg hk, Option.or_none]

theorem rows_foldl_insertOrIgnore {α : Type} (mk : α → ρ) (l : List α) {t : KeyedTable κ ρ key}
    (hnew : ∀ a ∈ l, t.has (key (mk a)) = false) (hnodup : (l.map fun a => key (mk a)).Nodup) :
    (l.foldl (fun t a => t.insertOrIgnore (mk a)) t).rows = t.rows ++ l.map mk := by
  induction l generalizing t with
  | nil => exact (List.append_nil _).symm
  | cons a l ih =>
    obtain ⟨hnot, hrest⟩ := List.nodup_cons.mp hnodup
    have hrows : (t.insertOrIgnore (mk a)).rows = t.rows ++ [mk a] := by
      rw [rows_insertOrIgnore, hnew a List.mem_cons_self]
      rfl
    have hnew' : ∀ b ∈ l, (t.insertOrIgnore (mk a)).has (key (mk b)) = false := by
      intro b hb
      rw [← lookup_eq_none, lookup_insertOrIgnore, if_neg, Option.or_none, lookup_eq_none]
      · exact hnew b (List.mem_cons_of_mem _ hb)
      · intro heq
        exact hnot (List.mem_map.mpr ⟨b, hb, heq.symm⟩)
    rw [List.foldl_cons, ih hnew' hrest, hrows, List.append_assoc, List.map_cons]
    rfl

theorem mem_keys_upsert (t : KeyedTable κ ρ key) (r : ρ) (f : ρ → ρ) (hf : ∀ x, key (f x) = key x)
    (k : κ) : k ∈ (t.upsert r f hf).rows.map key ↔ k = key r ∨ k ∈ t.rows.map key := by
  rw [rows_upsert]
  split
  · rename_i h
    obtain ⟨x, hx, hxk⟩ := has_iff.mp h
    have hkeys : (t.rows.map (fun x => if key x = key r then f x else x)).map key =
        t.rows.map key := by
      rw [List.map_map]
      refine List.map_congr_left (fun y _ => ?_)
      simp only [Function.comp]
      split
      · exact hf y
      · rfl
    rw [hkeys]
    constructor
    · exact Or.inr
    · rintro (rfl | h)
      · exact hxk ▸ List.mem_map_of_mem hx
      · exact h
  · rw [List.map_append, List.mem_append, List.map_singleton, List.mem_singleton]
    exact Or.comm

end KeyedTable

end HamZaboon.Library
