import Mathlib.Data.List.Basic
import Mathlib.Data.List.Nodup
import Mathlib.Tactic.Common

/-! # Candidates in tiers

Tiers are merged one behind the other, each entry at its first place (`addNew`), and the
preferred candidates fill the first places (`prefer`).  A place that a candidate which is
not preferred takes is one that no preferred candidate was left for.
-/

namespace HamZaboon.Library

variable {α : Type}

section New
variable [DecidableEq α] {l m : List α} {a : α}

/-- The list, and behind it what is new in the second one, once. -/
def addNew (l : List α) : List α → List α
  | [] => l
  | a :: m => addNew (if a ∈ l then l else l ++ [a]) m

theorem addNew_eq (l m : List α) :
    ∃ r, addNew l m = l ++ r ∧ r.Nodup ∧ ∀ a, a ∈ r ↔ a ∈ m ∧ a ∉ l := by
  induction m generalizing l with
  | nil => exact ⟨[], (List.append_nil l).symm, .nil, by simp⟩
  | cons b m ih =>
    by_cases hb : b ∈ l
    · obtain ⟨r, heq, hnodup, hmem⟩ := ih l
      refine ⟨r, by rw [addNew, if_pos hb, heq], hnodup, fun a => ?_⟩
      rw [hmem, List.mem_cons]
      constructor
      · exact fun ⟨ha, hnew⟩ => ⟨.inr ha, hnew⟩
      · rintro ⟨rfl | ha, hnew⟩
        · exact absurd hb hnew
        · exact ⟨ha, hnew⟩
    · obtain ⟨r, heq, hnodup, hmem⟩ := ih (l ++ [b])
      refine ⟨b :: r, by rw [addNew, if_neg hb, heq, List.append_assoc]; rfl,
        List.nodup_cons.mpr ⟨fun h => ((hmem b).mp h).2 (by simp), hnodup⟩, fun a => ?_⟩
      rw [List.mem_cons, hmem, List.mem_cons]
      by_cases hab : a = b
      · subst hab
        simp [hb]
      · simp [hab]

theorem mem_addNew : a ∈ addNew l m ↔ a ∈ l ∨ a ∈ m := by
  obtain ⟨r, heq, -, hmem⟩ := addNew_eq l m
  rw [heq, List.mem_append, hmem]
  by_cases h : a ∈ l <;> simp [h]

theorem addNew_append (l m m' : List α) : addNew l (m ++ m') = addNew (addNew l m) m' := by
  induction m generalizing l with
  | nil => rfl
  | cons a m ih => exact ih _

theorem addNew_of_nodup (hm : m.Nodup) (hnew : ∀ a ∈ m, a ∉ l) : addNew l m = l ++ m := by
  induction m generalizing l with
  | nil => exact (List.append_nil l).symm
  | cons b m ih =>
    rw [List.nodup_cons] at hm
    rw [addNew, if_neg (hnew b List.mem_cons_self), ih hm.2, List.append_assoc]
    · rfl
    · intro a ha hmem
      rcases List.mem_append.mp hmem with hl | hb
      · exact hnew a (List.mem_cons_of_mem _ ha) hl
      · exact hm.1 (List.mem_singleton.mp hb ▸ ha)

theorem nodup_addNew (h : l.Nodup) : (addNew l m).Nodup := by
  obtain ⟨r, heq, hnodup, hmem⟩ := addNew_eq l m
  rw [heq]
  exact h.append hnodup fun a hl hr => ((hmem a).mp hr).2 hl

theorem ordered_cons {r : List α} {b : α} (hb : b ∉ r)
    (h : r.Pairwise fun a c => m.idxOf a < m.idxOf c) :
    r.Pairwise fun a c => (b :: m).idxOf a < (b :: m).idxOf c := by
  refine h.imp_of_mem fun {a c} ha hc hlt => ?_
  rw [List.idxOf_cons_ne _ (ne_of_mem_of_not_mem ha hb).symm,
    List.idxOf_cons_ne _ (ne_of_mem_of_not_mem hc hb).symm]
  omega

theorem ordered_head {r : List α} {b : α} (hb : b ∉ r)
    (h : r.Pairwise fun a c => m.idxOf a < m.idxOf c) :
    (b :: r).Pairwise fun a c => (b :: m).idxOf a < (b :: m).idxOf c := by
  refine List.pairwise_cons.mpr ⟨fun a ha => ?_, ordered_cons hb h⟩
  rw [List.idxOf_cons_self, List.idxOf_cons_ne _ (ne_of_mem_of_not_mem ha hb).symm]
  omega

theorem addNew_ordered (l m : List α) :
    ∃ r, addNew l m = l ++ r ∧ r.Pairwise fun a b => m.idxOf a < m.idxOf b := by
  induction m generalizing l with
  | nil => exact ⟨[], (List.append_nil l).symm, .nil⟩
  | cons b m ih =>
    obtain ⟨r, heq, horder⟩ := ih (if b ∈ l then l else l ++ [b])
    -- `b` is known by now, so nothing that comes later is `b`
    have hb : b ∉ r := by
      obtain ⟨r', heq', -, hmem⟩ := addNew_eq (if b ∈ l then l else l ++ [b]) m
      obtain rfl : r = r' := List.append_cancel_left (heq.symm.trans heq')
      intro h
      refine ((hmem b).mp h).2 ?_
      split <;> simp_all
    by_cases hl : b ∈ l
    · exact ⟨r, by rw [addNew, heq, if_pos hl], ordered_cons hb horder⟩
    · refine ⟨b :: r, ?_, ordered_head hb horder⟩
      rw [addNew, heq, if_neg hl, List.append_assoc]
      rfl

theorem filter_ordered {p : α → Bool} (h : (l.filter p).Nodup) :
    (l.filter p).Pairwise fun a b => l.idxOf a < l.idxOf b := by
  induction l with
  | nil => exact .nil
  | cons b l ih =>
    by_cases hb : p b = true
    · rw [List.filter_cons_of_pos hb] at h ⊢
      obtain ⟨hnew, h⟩ := List.nodup_cons.mp h
      exact ordered_head hnew (ih h)
    · rw [List.filter_cons_of_neg hb] at h ⊢
      exact ordered_cons (fun hmem => hb (List.of_mem_filter hmem)) (ih h)

end New

section Preferred

def prefer (ok : α → Bool) (l : List α) : List α := l.filter ok ++ l.filter fun a => !ok a

variable {l r : List α} {a : α} {ok : α → Bool} {n : Nat}

@[simp] theorem mem_prefer : a ∈ prefer ok l ↔ a ∈ l := by
  rw [prefer, List.mem_append, List.mem_filter, List.mem_filter, ← and_or_left]
  exact and_iff_left (by cases ok a <;> simp)

theorem nodup_take_append (hr : r.Nodup) (hnew : ∀ a ∈ r, a ∉ l) :
    ((l ++ r).take n).Nodup ↔ (l.take n).Nodup := by
  rw [List.take_append, List.nodup_append]
  refine ⟨fun h => h.1, fun h => ⟨h, hr.sublist (List.take_sublist _ _), ?_⟩⟩
  rintro a ha b hb rfl
  exact hnew a (List.mem_of_mem_take hb) (List.mem_of_mem_take ha)

variable (ok) in
theorem nodup_take_prefer (hr : r.Nodup) (hnew : ∀ a ∈ r, a ∉ l) :
    ((prefer ok (l ++ r)).take n).Nodup ↔ ((l.filter ok).take n).Nodup ∧
      ((l.filter fun a => !ok a).take (n - ((l ++ r).filter ok).length)).Nodup := by
  have hpart : ∀ p : α → Bool, ∀ k, (((l ++ r).filter p).take k).Nodup ↔ ((l.filter p).take k).Nodup := by
    intro p k
    rw [List.filter_append]
    refine nodup_take_append (hr.filter p) fun a ha hl => ?_
    exact hnew a (List.mem_of_mem_filter ha) (List.mem_of_mem_filter hl)
  rw [prefer, List.take_append, List.nodup_append, hpart, hpart, ← and_assoc, and_iff_left]
  rintro a ha b hb rfl
  have hok := List.of_mem_filter (List.mem_of_mem_take ha)
  have hnot := List.of_mem_filter (List.mem_of_mem_take hb)
  simp [hok] at hnot

/-- A candidate that is not preferred gets a place when fewer are preferred than there are places. -/
theorem length_lt_of_mem_take_prefer (ha : a ∈ (prefer ok l).take n) (hok : ok a = false) :
    (l.filter ok).length < n := by
  by_contra hfull
  rw [prefer, List.take_append_of_le_length (Nat.not_lt.mp hfull)] at ha
  have hyes := List.of_mem_filter (List.mem_of_mem_take ha)
  rw [hok] at hyes
  cases hyes

theorem mem_take_prefer_of_lt (hfew : (l.filter ok).length < n) (ha : a ∈ l) (hok : ok a = true) :
    a ∈ (prefer ok l).take n := by
  rw [prefer, List.take_append, List.take_of_length_le (Nat.le_of_lt hfew)]
  exact List.mem_append_left _ (List.mem_filter.mpr ⟨ha, hok⟩)

variable (ok) in
/-- The first tier has a place when it has a preferred candidate, or the later ones leave it one. -/
theorem exists_mem_take_prefer (hne : l ≠ []) (hn : 0 < n) :
    (∃ a ∈ (prefer ok (l ++ r)).take n, a ∈ l) ↔
      (∃ a ∈ l, ok a = true) ∨ ((l ++ r).filter ok).length < n := by
  constructor
  · rintro ⟨a, ha, hl⟩
    cases hok : ok a with
    | true => exact .inl ⟨a, hl, hok⟩
    | false => exact .inr (length_lt_of_mem_take_prefer ha hok)
  · intro h
    by_cases hsome : ∃ a ∈ l, ok a = true
    · obtain ⟨b, rest, hfilter⟩ := List.exists_cons_of_ne_nil (l := l.filter ok) fun hnil => by
        obtain ⟨a, ha, hok⟩ := hsome
        exact List.not_mem_nil (hnil ▸ List.mem_filter.mpr ⟨ha, hok⟩)
      obtain ⟨k, rfl⟩ := Nat.exists_eq_add_of_lt hn
      refine ⟨b, ?_, List.mem_of_mem_filter (hfilter ▸ List.mem_cons_self : b ∈ l.filter ok)⟩
      rw [prefer, List.filter_append, hfilter]
      simp
    · have hfew := h.resolve_left hsome
      obtain ⟨b, rest, rfl⟩ := List.exists_cons_of_ne_nil hne
      have hb : ok b = false := by
        rw [← Bool.not_eq_true]
        exact fun hok => hsome ⟨b, List.mem_cons_self, hok⟩
      obtain ⟨k, hk⟩ : ∃ k, n - ((b :: rest ++ r).filter ok).length = k + 1 :=
        ⟨n - ((b :: rest ++ r).filter ok).length - 1, by omega⟩
      refine ⟨b, ?_, List.mem_cons_self⟩
      rw [prefer, List.take_append, hk]
      refine List.mem_append_right _ ?_
      rw [List.cons_append, List.filter_cons_of_pos (by simp [hb]), List.take_succ_cons]
      exact List.mem_cons_self

end Preferred

end HamZaboon.Library
