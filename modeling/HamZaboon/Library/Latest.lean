import HamZaboon.Library.JsonText
import Mathlib.Data.Finset.Card
import Mathlib.Data.List.Perm.Basic

/-! # The last entry of each key

A dictionary that takes entries one behind the other keeps the last of each key
(`perm_lastEntries`).  Keys that are read through a function keep as many entries
as before exactly when the function tells the keys apart (`perm_last_map_iff`).
-/

namespace HamZaboon.Library

variable {κ ν : Type} [DecidableEq κ]

/-- The entries whose key comes no more. -/
def lastEntries : List (κ × ν) → List (κ × ν)
  | [] => []
  | e :: es => if e.1 ∈ es.map (·.1) then lastEntries es else e :: lastEntries es

theorem mem_keys_lastEntries {es : List (κ × ν)} {k : κ} :
    k ∈ (lastEntries es).map (·.1) ↔ k ∈ es.map (·.1) := by
  induction es with
  | nil => rfl
  | cons e es ih =>
    rw [lastEntries]
    split
    · rename_i hmem
      rw [ih, List.map_cons, List.mem_cons]
      refine ⟨.inr, fun h => ?_⟩
      rcases h with rfl | h
      · exact hmem
      · exact h
    · rw [List.map_cons, List.map_cons, List.mem_cons, List.mem_cons, ih]

theorem nodup_keys_lastEntries (es : List (κ × ν)) : ((lastEntries es).map (·.1)).Nodup := by
  induction es with
  | nil => exact List.nodup_nil
  | cons e es ih =>
    rw [lastEntries]
    split
    · exact ih
    · rename_i hnew
      rw [List.map_cons, List.nodup_cons, mem_keys_lastEntries]
      exact ⟨hnew, ih⟩

theorem lastEntries_sublist (es : List (κ × ν)) : (lastEntries es).Sublist es := by
  induction es with
  | nil => exact List.Sublist.refl []
  | cons e es ih =>
    rw [lastEntries]
    split
    · exact ih.cons e
    · exact ih.cons_cons e

theorem lastEntries_append_singleton (es : List (κ × ν)) (e : κ × ν) :
    lastEntries (es ++ [e]) = (lastEntries es).filter (fun x => x.1 ≠ e.1) ++ [e] := by
  induction es with
  | nil => rfl
  | cons x es ih =>
    rw [List.cons_append, lastEntries, lastEntries, List.map_append, ih]
    by_cases hx : x.1 ∈ es.map (·.1)
    · rw [if_pos (List.mem_append_left _ hx), if_pos hx]
    · by_cases hkey : x.1 = e.1
      · rw [if_pos (List.mem_append_right _ (by simp [hkey])), if_neg hx,
          List.filter_cons_of_neg (by simp [hkey])]
      · have hnew : x.1 ∉ es.map (·.1) ++ [e].map (·.1) := by
          rw [List.mem_append, not_or]
          exact ⟨hx, by simpa using hkey⟩
        rw [if_neg hnew, if_neg hx, List.filter_cons_of_pos (by simp [hkey]), List.cons_append]

/-! ## Looking up -/

theorem lookup_cons_eq (e : κ × ν) (d : List (κ × ν)) (x : κ) :
    (e :: d).lookup x = if x = e.1 then some e.2 else d.lookup x := by
  obtain ⟨k, v⟩ := e
  rw [List.lookup_cons]
  by_cases hx : x = k
  · simp [hx]
  · have hne : (x == k) = false := by simpa using hx
    simp [hne, hx]

theorem mem_of_lookup_eq_some {d : List (κ × ν)} {x : κ} {v : ν} (h : d.lookup x = some v) :
    (x, v) ∈ d := by
  induction d with
  | nil => cases h
  | cons e d ih =>
    rw [lookup_cons_eq] at h
    split at h
    · rename_i hx
      rw [hx, ← Option.some.inj h]
      exact List.mem_cons_self
    · exact List.mem_cons_of_mem _ (ih h)

theorem lookup_mapValues {μ : Type} (f : κ → ν → μ) (d : List (κ × ν)) (x : κ) :
    (d.map fun e => (e.1, f e.1 e.2)).lookup x = (d.lookup x).map (f x) := by
  induction d with
  | nil => rfl
  | cons e d ih =>
    rw [List.map_cons, lookup_cons_eq, lookup_cons_eq, ih]
    by_cases hx : x = e.1
    · simp [hx]
    · simp [hx]

theorem lookup_eq_none_of_not_mem {d : List (κ × ν)} {x : κ} (h : x ∉ d.map (·.1)) :
    d.lookup x = none := by
  rw [List.lookup_eq_none_iff]
  intro e he
  have hne : x ≠ e.1 := fun heq => h (heq ▸ List.mem_map_of_mem he)
  simpa using hne

theorem lookup_replace (d : List (κ × ν)) (k : κ) (v : ν) (x : κ) :
    (d.map fun e => if e.1 = k then (k, v) else e).lookup x =
      if x = k ∧ k ∈ d.map (·.1) then some v else d.lookup x := by
  induction d with
  | nil => simp
  | cons e d ih =>
    rw [List.map_cons, lookup_cons_eq, lookup_cons_eq, ih]
    by_cases he : e.1 = k
    · by_cases hx : x = k
      · simp [he, hx]
      · simp [he, hx]
    · have hek : ¬ k = e.1 := fun h => he h.symm
      rw [if_neg he]
      by_cases hx : x = k
      · subst hx
        have hkeys : x ∈ (e :: d).map (·.1) ↔ x ∈ d.map (·.1) := by
          rw [List.map_cons, List.mem_cons]
          exact or_iff_right hek
        simp only [if_neg hek, true_and, hkeys]
      · simp [hx]

theorem lookup_setEntry (d : List (κ × ν)) (k : κ) (v : ν) (x : κ) :
    (setEntry d k v).lookup x = if x = k then some v else d.lookup x := by
  unfold setEntry
  split
  · rename_i hmem
    rw [lookup_replace]
    simp [hmem]
  · rename_i hnew
    rw [List.lookup_append, lookup_cons_eq]
    by_cases hx : x = k
    · subst hx
      simp [lookup_eq_none_of_not_mem hnew]
    · simp [hx]

theorem lookup_filter_ne (d : List (κ × ν)) (k x : κ) :
    (d.filter fun e => e.1 ≠ k).lookup x = if x = k then none else d.lookup x := by
  induction d with
  | nil => simp
  | cons e d ih =>
    rw [lookup_cons_eq]
    by_cases he : e.1 = k
    · rw [List.filter_cons_of_neg (by simp [he]), ih]
      by_cases hx : x = k
      · simp [hx]
      · simp [hx, he]
    · rw [List.filter_cons_of_pos (by simp [he]), lookup_cons_eq, ih]
      by_cases hx : x = k
      · have hne : ¬ x = e.1 := fun h => he (h.symm.trans hx)
        simp [hx, hx ▸ hne]
      · simp [hx]

/-! ## Entries that are set -/

theorem mem_setEntry {d : List (κ × ν)} {k : κ} {v : ν} {e : κ × ν}
    (h : e ∈ setEntry d k v) : e ∈ d ∨ e = (k, v) := by
  unfold setEntry at h
  split at h
  · obtain ⟨x, hx, rfl⟩ := List.mem_map.mp h
    by_cases hk : x.1 = k
    · exact .inr (if_pos hk)
    · rw [if_neg hk]
      exact .inl hx
  · rcases List.mem_append.mp h with h | h
    · exact .inl h
    · exact .inr (List.mem_singleton.mp h)

theorem keys_setEntry (d : List (κ × ν)) (k : κ) (v : ν) :
    (setEntry d k v).map (·.1) = if k ∈ d.map (·.1) then d.map (·.1) else d.map (·.1) ++ [k] := by
  unfold setEntry
  split
  · rw [List.map_map]
    refine List.map_congr_left fun e _ => ?_
    simp only [Function.comp_apply]
    split
    · rename_i h
      exact h.symm
    · rfl
  · rw [List.map_append]
    rfl

theorem setEntry_perm {d : List (κ × ν)} (hd : (d.map (·.1)).Nodup) (k : κ) (v : ν) :
    (setEntry d k v).Perm (d.filter (fun x => x.1 ≠ k) ++ [(k, v)]) := by
  unfold setEntry
  split
  · rename_i hmem
    induction d with
    | nil => cases hmem
    | cons e d ih =>
      obtain ⟨hnew, hd⟩ := List.nodup_cons.mp hd
      by_cases he : e.1 = k
      · have hothers : ∀ x ∈ d, x.1 ≠ k := fun x hx heq =>
          hnew (List.mem_map.mpr ⟨x, hx, heq.trans he.symm⟩)
        have hmap : d.map (fun x => if x.1 = k then (k, v) else x) = d :=
          (List.map_congr_left fun x hx => if_neg (hothers x hx)).trans (List.map_id d)
        rw [List.map_cons, if_pos he, hmap, List.filter_cons_of_neg (by simp [he]),
          List.filter_eq_self.mpr fun x hx => decide_eq_true (hothers x hx)]
        exact (List.perm_append_singleton (k, v) d).symm
      · have hmem' : k ∈ d.map (·.1) := by
          rcases List.mem_cons.mp hmem with h | h
          · exact absurd h.symm he
          · exact h
        rw [List.map_cons, if_neg he, List.filter_cons_of_pos (by simp [he])]
        exact (ih hd hmem').cons e
  · rename_i hnew
    have hothers : ∀ x ∈ d, x.1 ≠ k := fun x hx heq => hnew (heq ▸ List.mem_map_of_mem hx)
    rw [List.filter_eq_self.mpr fun x hx => decide_eq_true (hothers x hx)]

/-- **A dictionary keeps the last entry of each key.** -/
theorem perm_lastEntries (es : List (κ × ν)) :
    (es.foldl (fun d e => setEntry d e.1 e.2) []).Perm (lastEntries es) := by
  induction es using List.reverseRecOn with
  | nil => exact List.Perm.refl _
  | append_singleton es e ih =>
    have hnodup : ((es.foldl (fun d e => setEntry d e.1 e.2) []).map (·.1)).Nodup :=
      (ih.map _).nodup_iff.mpr (nodup_keys_lastEntries es)
    rw [List.foldl_append, lastEntries_append_singleton]
    exact (setEntry_perm hnodup e.1 e.2).trans ((ih.filter _).append_right [e])

theorem length_lastEntries (es : List (κ × ν)) :
    (lastEntries es).length = (es.map (·.1)).toFinset.card := by
  have hset : ((lastEntries es).map (·.1)).toFinset = (es.map (·.1)).toFinset := by
    ext k
    rw [List.mem_toFinset, List.mem_toFinset, mem_keys_lastEntries]
  rw [← hset, List.toFinset_card_of_nodup (nodup_keys_lastEntries es), List.length_map]

theorem lastEntries_mapValues {μ : Type} (g : ν → μ) (es : List (κ × ν)) :
    lastEntries (es.map fun e => (e.1, g e.2)) = (lastEntries es).map fun e => (e.1, g e.2) := by
  induction es with
  | nil => rfl
  | cons e es ih =>
    have hkeys : (es.map fun e => (e.1, g e.2)).map (·.1) = es.map (·.1) := by
      rw [List.map_map]
      rfl
    rw [List.map_cons, lastEntries, lastEntries, hkeys, ih]
    split
    · rfl
    · rfl

section Keys
variable {ι : Type} [DecidableEq ι]

theorem lastEntries_map {f : κ → ι} {es : List (κ × ν)}
    (hf : ∀ k ∈ es.map (·.1), ∀ l ∈ es.map (·.1), f k = f l → k = l) :
    lastEntries (es.map fun e => (f e.1, e.2)) = (lastEntries es).map fun e => (f e.1, e.2) := by
  induction es with
  | nil => rfl
  | cons e es ih =>
    have hrest := ih fun k hk l hl =>
      hf k (List.mem_cons_of_mem _ hk) l (List.mem_cons_of_mem _ hl)
    have hmem : f e.1 ∈ (es.map fun e => (f e.1, e.2)).map (·.1) ↔ e.1 ∈ es.map (·.1) := by
      rw [List.map_map, List.mem_map]
      constructor
      · rintro ⟨x, hx, heq⟩
        have hsame := hf x.1 (List.mem_cons_of_mem _ (List.mem_map_of_mem hx)) e.1
          List.mem_cons_self heq
        exact hsame ▸ List.mem_map_of_mem hx
      · intro h
        obtain ⟨x, hx, heq⟩ := List.mem_map.mp h
        exact ⟨x, hx, congrArg f heq⟩
    rw [List.map_cons, lastEntries, lastEntries, hrest]
    by_cases h : e.1 ∈ es.map (·.1)
    · rw [if_pos (hmem.mpr h), if_pos h]
    · rw [if_neg (mt hmem.mp h), if_neg h, List.map_cons]

/-- **Read through a function of the keys, a dictionary keeps the last entry of each
key exactly when the function tells the keys apart.** -/
theorem perm_last_map_iff {f : κ → ι} {es : List (κ × ν)} :
    ((lastEntries (es.map fun e => (f e.1, e.2))).map (·.2)).Perm ((lastEntries es).map (·.2)) ↔
      ∀ k ∈ es.map (·.1), ∀ l ∈ es.map (·.1), f k = f l → k = l := by
  constructor
  · intro h
    have hcard := h.length_eq
    rw [List.length_map, List.length_map, length_lastEntries, length_lastEntries, List.map_map] at hcard
    have himage : (es.map ((·.1) ∘ fun e => (f e.1, e.2))).toFinset =
        ((es.map (·.1)).toFinset).image f := by
      ext i
      simp only [List.mem_toFinset, List.mem_map, Function.comp_apply, Finset.mem_image]
      constructor
      · rintro ⟨e, he, rfl⟩
        exact ⟨e.1, ⟨e, he, rfl⟩, rfl⟩
      · rintro ⟨k, ⟨e, he, rfl⟩, rfl⟩
        exact ⟨e, he, rfl⟩
    rw [himage] at hcard
    have hinj := Finset.card_image_iff.mp hcard
    intro k hk l hl heq
    exact hinj (Finset.mem_coe.mpr (List.mem_toFinset.mpr hk))
      (Finset.mem_coe.mpr (List.mem_toFinset.mpr hl)) heq
  · intro h
    rw [lastEntries_map h, List.map_map]
    exact List.Perm.refl _

end Keys

end HamZaboon.Library
