import Mathlib.Data.List.Nodup
import Mathlib.Tactic.Common

/-! # Grouping by a key

A dictionary of lists, filled by one pass over a list: each key has the entries
with that key in the order in which they came, and the keys stand in the order
in which their first entries came.
-/

namespace HamZaboon.Library

variable {α κ : Type} [DecidableEq κ]

/-- `groups.setdefault(k, []).append(a)`. -/
def addToGroup (groups : List (κ × List α)) (k : κ) (a : α) : List (κ × List α) :=
  if groups.any fun g => g.1 = k then groups.map fun g => if g.1 = k then (k, g.2 ++ [a]) else g
  else groups ++ [(k, [a])]

/-- The pass; entries without a key are skipped. -/
def groupBy (key : α → Option κ) : List (κ × List α) → List α → List (κ × List α)
  | groups, [] => groups
  | groups, a :: l =>
    match key a with
    | none => groupBy key groups l
    | some k => groupBy key (addToGroup groups k a) l

/-- The groups of a list: one for each key that occurs, with all entries under it. -/
structure GroupsOf (key : α → Option κ) (l : List α) (groups : List (κ × List α)) : Prop where
  nodup : (groups.map Prod.fst).Nodup
  mem_iff : ∀ k items, (k, items) ∈ groups ↔ items = l.filter (fun a => key a = some k) ∧ items ≠ []

variable {key : α → Option κ}

theorem groupsOf_nil : GroupsOf key [] [] where
  nodup := List.nodup_nil
  mem_iff k items := by
    constructor
    · intro h
      cases h
    · rintro ⟨rfl, hne⟩
      exact absurd rfl hne

theorem GroupsOf.skip {l : List α} {groups : List (κ × List α)} (h : GroupsOf key l groups) {a : α}
    (ha : key a = none) : GroupsOf key (l ++ [a]) groups where
  nodup := h.nodup
  mem_iff k items := by
    have hfilter : (l ++ [a]).filter (fun b => key b = some k) =
        l.filter fun b => key b = some k := by simp [ha]
    rw [hfilter, h.mem_iff]

theorem GroupsOf.any_iff {l : List α} {groups : List (κ × List α)} (h : GroupsOf key l groups)
    (k : κ) : groups.any (fun g => g.1 = k) = true ↔ l.filter (fun a => key a = some k) ≠ [] := by
  rw [List.any_eq_true]
  constructor
  · rintro ⟨⟨k', items⟩, hmem, hk⟩
    obtain rfl : k' = k := of_decide_eq_true hk
    obtain ⟨rfl, hne⟩ := (h.mem_iff _ _).mp hmem
    exact hne
  · exact fun hne => ⟨(k, _), (h.mem_iff _ _).mpr ⟨rfl, hne⟩, by simp⟩

section Add
variable {l : List α} {groups : List (κ × List α)} {a : α} {k : κ}

theorem filter_key_self (ha : key a = some k) (l : List α) :
    (l ++ [a]).filter (fun b => key b = some k) = l.filter (fun b => key b = some k) ++ [a] := by
  simp [ha]

theorem filter_key_of_ne (ha : key a = some k) (l : List α) {k' : κ} (hne : k' ≠ k) :
    (l ++ [a]).filter (fun b => key b = some k') = l.filter fun b => key b = some k' := by
  simp [ha, Ne.symm hne]

theorem GroupsOf.join (h : GroupsOf key l groups) (ha : key a = some k)
    (hold : l.filter (fun b => key b = some k) ≠ []) :
    GroupsOf key (l ++ [a]) (groups.map fun g => if g.1 = k then (k, g.2 ++ [a]) else g) := by
  refine ⟨?_, fun k' items => ?_⟩
  · have hkeys : (groups.map fun g => if g.1 = k then (k, g.2 ++ [a]) else g).map Prod.fst =
        groups.map Prod.fst := by
      rw [List.map_map]
      refine List.map_congr_left fun g _ => ?_
      by_cases hg : g.1 = k <;> simp [hg]
    rw [hkeys]
    exact h.nodup
  · rw [List.mem_map]
    constructor
    · rintro ⟨⟨k₀, items₀⟩, hmem, heq⟩
      obtain ⟨rfl, hne⟩ := (h.mem_iff _ _).mp hmem
      by_cases hk : k₀ = k
      · subst hk
        rw [if_pos rfl, Prod.mk.injEq] at heq
        obtain ⟨rfl, rfl⟩ := heq
        exact ⟨(filter_key_self ha l).symm, by simp⟩
      · rw [if_neg hk, Prod.mk.injEq] at heq
        obtain ⟨rfl, rfl⟩ := heq
        exact ⟨(filter_key_of_ne ha l hk).symm, hne⟩
    · rintro ⟨rfl, hne⟩
      by_cases hk : k' = k
      · subst hk
        exact ⟨(k', _), (h.mem_iff _ _).mpr ⟨rfl, hold⟩, by rw [if_pos rfl, filter_key_self ha]⟩
      · rw [filter_key_of_ne ha l hk] at hne ⊢
        exact ⟨(k', _), (h.mem_iff _ _).mpr ⟨rfl, hne⟩, if_neg hk⟩

theorem GroupsOf.start (h : GroupsOf key l groups) (ha : key a = some k)
    (hnone : l.filter (fun b => key b = some k) = []) :
    GroupsOf key (l ++ [a]) (groups ++ [(k, [a])]) := by
  refine ⟨?_, fun k' items => ?_⟩
  · rw [List.map_append]
    refine List.nodup_append'.mpr ⟨h.nodup, List.nodup_singleton k, ?_⟩
    refine List.disjoint_singleton.mpr fun hmem => ?_
    obtain ⟨⟨_, items⟩, hitems, rfl⟩ := List.mem_map.mp hmem
    obtain ⟨rfl, hne⟩ := (h.mem_iff _ _).mp hitems
    exact hne hnone
  · rw [List.mem_append, List.mem_singleton, h.mem_iff, Prod.mk.injEq]
    by_cases hk : k' = k
    · subst hk
      rw [filter_key_self ha, hnone, List.nil_append]
      constructor
      · rintro (⟨rfl, hne⟩ | ⟨-, rfl⟩)
        · exact absurd rfl hne
        · exact ⟨rfl, by simp⟩
      · rintro ⟨rfl, -⟩
        exact .inr ⟨rfl, rfl⟩
    · rw [filter_key_of_ne ha l hk]
      simp [hk]

theorem GroupsOf.add (h : GroupsOf key l groups) (ha : key a = some k) :
    GroupsOf key (l ++ [a]) (addToGroup groups k a) := by
  unfold addToGroup
  split
  · rename_i hany
    exact h.join ha ((h.any_iff k).mp hany)
  · rename_i hany
    refine h.start ha ?_
    by_contra hne
    exact hany ((h.any_iff k).mpr hne)

end Add

theorem GroupsOf.groupBy {l l' : List α} {groups : List (κ × List α)} (h : GroupsOf key l groups) :
    GroupsOf key (l ++ l') (groupBy key groups l') := by
  induction l' generalizing l groups with
  | nil => rwa [List.append_nil]
  | cons a l' ih =>
    rw [← List.singleton_append, ← List.append_assoc, List.singleton_append, Library.groupBy]
    cases ha : key a with
    | none => exact ih (h.skip ha)
    | some k => exact ih (h.add ha)

/-- **The pass groups the list.** -/
theorem groupsOf_groupBy (key : α → Option κ) (l : List α) : GroupsOf key l (groupBy key [] l) :=
  groupsOf_nil.groupBy

theorem flatMap_filter_perm {keys : List κ} (hnodup : keys.Nodup) {l : List α}
    (hkey : ∀ a ∈ l, ∃ k ∈ keys, key a = some k) :
    (keys.flatMap fun k => l.filter fun a => key a = some k).Perm l := by
  induction keys generalizing l with
  | nil =>
    have hnil : l = [] := List.eq_nil_iff_forall_not_mem.mpr fun a ha => by
      obtain ⟨k, hk, -⟩ := hkey a ha
      cases hk
    rw [hnil]
    exact .nil
  | cons k keys ih =>
    obtain ⟨hk, hnodup⟩ := List.nodup_cons.mp hnodup
    have hrest : (keys.flatMap fun k' => l.filter fun a => key a = some k') =
        keys.flatMap fun k' => (l.filter fun a => !decide (key a = some k)).filter
          fun a => key a = some k' := by
      refine List.flatMap_congr fun k' hk' => ?_
      rw [List.filter_filter]
      refine List.filter_congr fun a _ => ?_
      by_cases ha : key a = some k'
      · have hne : k' ≠ k := fun h => hk (h ▸ hk')
        simp [ha, hne]
      · simp [ha]
    rw [List.flatMap_cons, hrest]
    refine ((ih hnodup fun a ha => ?_).append_left _).trans (List.filter_append_perm _ l)
    obtain ⟨hmem, hne⟩ := List.mem_filter.mp ha
    obtain ⟨k', hk', hkey'⟩ := hkey a hmem
    refine ⟨k', (List.mem_cons.mp hk').resolve_left ?_, hkey'⟩
    rintro rfl
    simp [hkey'] at hne

end HamZaboon.Library
