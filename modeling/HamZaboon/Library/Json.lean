import Mathlib.Data.List.Nodup
import Mathlib.Data.Rat.Defs
import Mathlib.Tactic.Common

/-! # Decoded JSON

The values a JSON text decodes to, and what a dictionary does: reading and
setting an entry, and taking over the entries of another.  A dictionary keeps
its entries in the order in which its keys came.
-/

namespace HamZaboon.Library

inductive JsonValue where
  | null
  | bool (value : Bool)
  | int (value : Int)
  | float (value : Rat)
  | str (value : String)
  | arr (items : List JsonValue)
  | obj (entries : List (String × JsonValue))
  deriving Repr

/-- `bool(value)`. -/
def JsonValue.truthy : JsonValue → Bool
  | .null => false
  | .bool value => value
  | .int value => value ≠ 0
  | .float value => value ≠ 0
  | .str value => value ≠ ""
  | .arr items => !items.isEmpty
  | .obj entries => !entries.isEmpty

/-- The items of `value or []`, unless the value cannot be iterated: a text has
its characters, a dictionary its keys. -/
def JsonValue.iterate : JsonValue → Option (List JsonValue)
  | .arr items => some items
  | .str value => some (value.toList.map fun c => .str (String.singleton c))
  | .obj entries => some (entries.map fun e => .str e.1)
  | value => if value.truthy then none else some []

/-- The items of a list; any other value counts as no list. -/
def JsonValue.listItems : JsonValue → Option (List JsonValue)
  | .arr items => some items
  | _ => none

/-- The number a value is; a truth value is 0 or 1. -/
def JsonValue.number : JsonValue → Option Rat
  | .bool value => some (if value then 1 else 0)
  | .int value => some value
  | .float value => some value
  | _ => none

mutual

/-- `a == b`. -/
def JsonValue.pyEq : JsonValue → JsonValue → Bool
  | .null, .null => true
  | .str a, .str b => a = b
  | .arr as, .arr bs => pyEqItems as bs
  | .obj as, .obj bs => as.length = bs.length && pyEqEntries as bs
  | a, b => a.number.isSome && a.number = b.number

def JsonValue.pyEqItems : List JsonValue → List JsonValue → Bool
  | [], [] => true
  | a :: as, b :: bs => a.pyEq b && pyEqItems as bs
  | _, _ => false

def JsonValue.pyEqEntries : List (String × JsonValue) → List (String × JsonValue) → Bool
  | [], _ => true
  | (k, a) :: as, bs => (match bs.lookup k with
      | some b => a.pyEq b
      | none => false) && pyEqEntries as bs

end

abbrev Dict := List (String × JsonValue)

namespace Dict

/-- `d[k] = v`. -/
def set (d : Dict) (k : String) (v : JsonValue) : Dict :=
  if (d.lookup k).isSome then d.map fun e => if e.1 = k then (k, v) else e
  else d ++ [(k, v)]

/-- `d.update(p)`. -/
def update (d p : Dict) : Dict := p.foldl (fun d e => d.set e.1 e.2) d

/-- `d.get(k)`. -/
def get (d : Dict) (k : String) : JsonValue := (d.lookup k).getD .null

theorem lookup_set (d : Dict) (k : String) (v : JsonValue) (x : String) :
    (d.set k v).lookup x = if x = k then some v else d.lookup x := by
  have hmap : ∀ d : Dict, (d.map fun e => if e.1 = k then (k, v) else e).lookup x =
      if x = k then (d.lookup k).map fun _ => v else d.lookup x := by
    intro d
    induction d with
    | nil => simp
    | cons e d ih =>
      obtain ⟨y, w⟩ := e
      rw [List.map_cons]
      by_cases hy : y = k
      · subst hy
        by_cases hx : x = y
        · simp [hx]
        · simp [List.lookup_cons, beq_false_of_ne hx, ih, hx]
      · by_cases hx : x = k
        · subst hx
          simp [List.lookup_cons, hy, beq_false_of_ne (Ne.symm hy), ih]
        · simp only [hy, if_false, List.lookup_cons, ih, hx]
  unfold set
  split
  · rename_i hk
    obtain ⟨w, hw⟩ := Option.isSome_iff_exists.mp hk
    rw [hmap, hw]
    rfl
  · rename_i hk
    rw [List.lookup_append]
    by_cases hx : x = k
    · subst hx
      simp [Option.not_isSome_iff_eq_none.mp hk]
    · simp [hx, List.lookup_cons, beq_false_of_ne hx]

@[simp] theorem get_set_self (d : Dict) (k : String) (v : JsonValue) : (d.set k v).get k = v := by
  rw [get, lookup_set, if_pos rfl, Option.getD_some]

@[simp] theorem set_set (d : Dict) (k : String) (v : JsonValue) :
    (d.set k v).set k v = d.set k v := by
  have hset : (d.set k v).lookup k = some v := by rw [lookup_set, if_pos rfl]
  have hself : ∀ e ∈ d.set k v, e.1 = k → e = (k, v) := by
    intro e he hk
    unfold set at he
    split at he
    · obtain ⟨old, -, rfl⟩ := List.mem_map.mp he
      by_cases hold : old.1 = k
      · rw [if_pos hold]
      · rw [if_neg hold] at hk
        exact absurd hk hold
    · rename_i hnone
      rcases List.mem_append.mp he with he | he
      · have hold := List.lookup_eq_none_iff.mp (Option.not_isSome_iff_eq_none.mp hnone) e he
        simp [hk] at hold
      · exact List.mem_singleton.mp he
  have hfix : (d.set k v).map (fun e => if e.1 = k then (k, v) else e) = d.set k v := by
    refine (List.map_congr_left fun e he => ?_).trans (List.map_id _)
    split
    · rename_i hk
      exact (hself e he hk).symm
    · rfl
  rw [set, hset]
  exact hfix

theorem lookup_update (d : Dict) {p : Dict} (hp : (p.map Prod.fst).Nodup) (x : String) :
    (d.update p).lookup x = (p.lookup x).or (d.lookup x) := by
  induction p generalizing d with
  | nil => simp [update]
  | cons e p ih =>
    obtain ⟨k, v⟩ := e
    obtain ⟨hk, hp⟩ := List.nodup_cons.mp hp
    show ((d.set k v).update p).lookup x = _
    rw [ih _ hp, lookup_set]
    by_cases hx : x = k
    · subst hx
      have hnone : p.lookup x = none := List.lookup_eq_none_iff.mpr fun e he => by
        simpa using fun h : x = e.1 => hk (List.mem_map.mpr ⟨e, he, h.symm⟩)
      simp [hnone]
    · simp [List.lookup_cons, beq_false_of_ne hx, hx]

theorem lookup_update_of_same {d p : Dict} {k : String} {v : JsonValue}
    (h : d.lookup k = some v) (hp : ∀ e ∈ p, e.1 = k → e.2 = v) :
    (d.update p).lookup k = some v := by
  induction p generalizing d with
  | nil => exact h
  | cons e p ih =>
    refine ih ?_ fun e' he' => hp e' (List.mem_cons_of_mem e he')
    rw [lookup_set]
    split
    · rename_i hk
      rw [hp e List.mem_cons_self hk.symm]
    · exact h

theorem keys_set (d : Dict) (k : String) (v : JsonValue) :
    (d.set k v).map Prod.fst =
      if (d.lookup k).isSome then d.map Prod.fst else d.map Prod.fst ++ [k] := by
  unfold set
  split
  · rw [List.map_map]
    refine List.map_congr_left fun e _ => ?_
    simp only [Function.comp]
    split
    · rename_i h
      exact h.symm
    · rfl
  · simp

theorem isSome_lookup {d : Dict} {k : String} :
    (d.lookup k).isSome = true ↔ k ∈ d.map Prod.fst := by
  induction d with
  | nil => simp
  | cons e d ih =>
    rw [List.lookup_cons, List.map_cons, List.mem_cons]
    by_cases h : k = e.1
    · simp [h]
    · simp [beq_false_of_ne h, h, ih]

theorem nodup_keys_set {d : Dict} (h : (d.map Prod.fst).Nodup) (k : String) (v : JsonValue) :
    ((d.set k v).map Prod.fst).Nodup := by
  rw [keys_set]
  split
  · exact h
  · rename_i hk
    rw [isSome_lookup] at hk
    exact List.nodup_append'.mpr ⟨h, List.nodup_singleton k, by simpa using hk⟩

def mapKeys (f : String → String) (d : Dict) : Dict := d.map fun e => (f e.1, e.2)

@[simp] theorem keys_mapKeys (f : String → String) (d : Dict) :
    (d.mapKeys f).map Prod.fst = (d.map Prod.fst).map f := by
  simp [mapKeys]

theorem lookup_mapKeys {f : String → String} {d : Dict} {j k : String}
    (h : ∀ y ∈ d.map Prod.fst, f y = k ↔ y = j) : (d.mapKeys f).lookup k = d.lookup j := by
  induction d with
  | nil => rfl
  | cons e d ih =>
    have hhead := h e.1 (by simp)
    have htail := ih fun y hy => h y (List.mem_cons_of_mem _ hy)
    show ((f e.1, e.2) :: mapKeys f d).lookup k = (e :: d).lookup j
    rw [List.lookup_cons, List.lookup_cons, htail]
    by_cases hj : e.1 = j
    · rw [hhead.mpr hj, hj]
      simp
    · rw [beq_false_of_ne fun heq => hj (hhead.mp heq.symm), beq_false_of_ne (Ne.symm hj)]

end Dict

end HamZaboon.Library
