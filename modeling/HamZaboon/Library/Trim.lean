import Mathlib.Data.List.DropRight
import Mathlib.Data.List.TakeWhile
import Mathlib.Tactic.Common

/-! # Trimming a list at both ends -/

namespace HamZaboon.Library

variable {α : Type} (p : α → Bool)

/-- The list without the entries satisfying `p` at its two ends. -/
def trim (l : List α) : List α := (l.dropWhile p).rdropWhile p

variable {p}

@[simp] theorem trim_eq_nil_iff {l : List α} : trim p l = [] ↔ ∀ a ∈ l, p a = true := by
  unfold trim
  rw [List.rdropWhile_eq_nil_iff]
  constructor
  · intro h
    have hnil : l.dropWhile p = [] := by
      rw [← List.dropWhile_idempotent, List.dropWhile_eq_nil_iff]
      exact h
    exact List.dropWhile_eq_nil_iff.mp hnil
  · intro h a ha
    exact h a ((List.dropWhile_sublist p).subset ha)

theorem dropWhile_trim (l : List α) : (trim p l).dropWhile p = trim p l := by
  rw [List.dropWhile_eq_self_iff]
  intro hpos
  obtain ⟨t, ht⟩ : trim p l <+: l.dropWhile p := List.rdropWhile_prefix p _
  have hpos' : 0 < (l.dropWhile p).length := by
    rw [← ht, List.length_append]
    omega
  have hhead := List.dropWhile_eq_self_iff.mp (List.dropWhile_idempotent p (l := l)) hpos'
  have heq : (trim p l)[0] = (l.dropWhile p)[0] := by
    simp only [← ht, List.getElem_append_left hpos]
  rwa [heq]

@[simp] theorem trim_trim (l : List α) : trim p (trim p l) = trim p l := by
  rw [trim, dropWhile_trim, trim, List.rdropWhile_idempotent]

theorem trim_eq_self {a : α} {l : List α} (ha : p a = false)
    (hlast : ∀ b ∈ (a :: l).getLast?, p b = false) : trim p (a :: l) = a :: l := by
  rw [trim, List.dropWhile_cons_of_neg (by simp [ha]), List.rdropWhile_eq_self_iff]
  intro hne
  have hb := hlast _ (List.getLast?_eq_some_getLast hne)
  simp [hb]

theorem trim_append {a : α} {w : List α} (ha : p a = false)
    (hlast : ∀ b ∈ (a :: w).getLast?, p b = false) (l : List α) :
    trim p (a :: w ++ l) = a :: w ++ l.rdropWhile p := by
  induction l using List.reverseRecOn with
  | nil => rw [List.append_nil, List.rdropWhile_nil, List.append_nil, trim_eq_self ha hlast]
  | append_singleton l b ih =>
    have hhead : ∀ l : List α, (a :: w ++ l).dropWhile p = a :: w ++ l := fun l =>
      List.dropWhile_cons_of_neg (by simp [ha])
    rw [trim, hhead] at ih ⊢
    by_cases hb : p b = true
    · rw [← List.append_assoc, List.rdropWhile_concat_pos _ _ _ hb,
        List.rdropWhile_concat_pos _ _ _ hb]
      exact ih
    · rw [← List.append_assoc, List.rdropWhile_concat_neg _ _ _ hb,
        List.rdropWhile_concat_neg _ _ _ hb, List.append_assoc]

theorem getLast?_trim {l : List α} : ∀ b ∈ (trim p l).getLast?, p b = false := by
  intro b hb
  have hne : trim p l ≠ [] := by
    intro h
    rw [h] at hb
    cases hb
  rw [List.getLast?_eq_some_getLast hne] at hb
  obtain rfl := Option.some.inj hb
  exact eq_false_of_ne_true (List.rdropWhile_last_not p (l.dropWhile p) hne)

theorem trim_map {β : Type} (f : β → α) (l : List β) :
    trim p (l.map f) = (trim (fun b => p (f b)) l).map f := by
  simp only [trim, List.rdropWhile, List.dropWhile_map, ← List.map_reverse]
  rfl

theorem mem_of_mem_trim {a : α} {l : List α} (h : a ∈ trim p l) : a ∈ l :=
  (List.dropWhile_sublist p).subset ((List.rdropWhile_prefix p _).subset h)

theorem mem_trim {a : α} {l : List α} (ha : p a = false) (hmem : a ∈ l) : a ∈ trim p l := by
  have hkept : ∀ l : List α, a ∈ l → a ∈ l.dropWhile p := by
    intro l hmem
    rw [← List.takeWhile_append_dropWhile (p := p) (l := l)] at hmem
    refine (List.mem_append.mp hmem).resolve_left fun hfirst => ?_
    rw [List.mem_takeWhile_imp hfirst] at ha
    cases ha
  unfold trim List.rdropWhile
  exact List.mem_reverse.mpr (hkept _ (List.mem_reverse.mpr (hkept l hmem)))

end HamZaboon.Library
