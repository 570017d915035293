import Mathlib.Data.List.DropRight
import Mathlib.Tactic.Common

/-! # The chunks between separators

`s.split()` and `" ".join(…)` on lists: the nonempty runs between separators, and runs
put together again with one separator between two.  Runs that were put together are
found again (`chunks_joinBefore`).
-/

namespace HamZaboon.Library

variable {α : Type} {p : α → Bool} {sep : α}

/-- The nonempty runs between the entries that satisfy `p`. -/
def chunks (p : α → Bool) (l : List α) : List (List α) := (l.splitOnP p).filter (!·.isEmpty)

/-- Runs that a list can have. -/
def IsChunk (p : α → Bool) (run : List α) : Prop := run ≠ [] ∧ ∀ a ∈ run, p a = false

@[simp] theorem chunks_nil : chunks p [] = [] := by
  simp [chunks]

theorem chunks_append_cons (hsep : p sep = true) (a b : List α) :
    chunks p (a ++ sep :: b) = chunks p a ++ chunks p b := by
  rw [chunks, List.splitOnP_append_cons a b hsep, List.filter_append]
  rfl

theorem chunks_of_isChunk {run : List α} (h : IsChunk p run) : chunks p run = [run] := by
  rw [chunks, List.splitOnP_eq_singleton h.2]
  simp [h.1]

theorem isChunk_of_mem_chunks {l run : List α} (h : run ∈ chunks p l) :
    IsChunk p run ∧ ∀ a ∈ run, a ∈ l := by
  have hsplit : ∀ l : List α, ∀ run ∈ l.splitOnP p, ∀ a ∈ run, p a = false ∧ a ∈ l := by
    intro l
    induction l with
    | nil => simp
    | cons b l ih =>
      intro run hrun a ha
      rw [List.splitOnP_cons_eq_if_modifyHead] at hrun
      split at hrun
      · rcases List.mem_cons.mp hrun with rfl | hrun
        · cases ha
        · exact ⟨(ih run hrun a ha).1, List.mem_cons_of_mem _ (ih run hrun a ha).2⟩
      · rename_i hb
        cases hrest : l.splitOnP p with
        | nil => exact absurd hrest (List.splitOnP_ne_nil p l)
        | cons first rest =>
          rw [hrest, List.modifyHead_cons] at hrun
          have hmem : ∀ run ∈ first :: rest, ∀ a ∈ run, p a = false ∧ a ∈ b :: l := fun run hrun a ha =>
            ⟨(ih run (hrest ▸ hrun) a ha).1, List.mem_cons_of_mem _ (ih run (hrest ▸ hrun) a ha).2⟩
          rcases List.mem_cons.mp hrun with rfl | hrun
          · rcases List.mem_cons.mp ha with rfl | ha
            · exact ⟨eq_false_of_ne_true hb, List.mem_cons_self⟩
            · exact hmem first List.mem_cons_self a ha
          · exact hmem run (List.mem_cons_of_mem _ hrun) a ha
  obtain ⟨hmem, hne⟩ := List.mem_filter.mp h
  exact ⟨⟨by simpa using hne, fun a ha => (hsplit l run hmem a ha).1⟩,
    fun a ha => (hsplit l run hmem a ha).2⟩

theorem chunks_eq_nil {l : List α} (h : ∀ a ∈ l, p a = true) : chunks p l = [] := by
  refine List.eq_nil_iff_forall_not_mem.mpr fun run hrun => ?_
  obtain ⟨⟨hne, hp⟩, hmem⟩ := isChunk_of_mem_chunks hrun
  obtain ⟨a, ha⟩ := List.exists_mem_of_ne_nil run hne
  exact Bool.noConfusion ((h a (hmem a ha)).symm.trans (hp a ha))

/-- The runs with one separator between two. -/
def join (sep : α) (runs : List (List α)) : List α := [sep].intercalate runs

@[simp] theorem join_singleton (run : List α) : join sep [run] = run := List.intercalate_singleton ..

theorem join_cons_cons (run run' : List α) (runs : List (List α)) :
    join sep (run :: run' :: runs) = run ++ sep :: join sep (run' :: runs) := by
  rw [join, List.intercalate_cons_cons, List.append_assoc]
  rfl

/-- The runs before the last one, each with its separator. -/
def joinBefore (sep : α) (runs : List (List α)) : List α := runs.flatMap (· ++ [sep])

theorem join_append_singleton (runs : List (List α)) (run : List α) :
    join sep (runs ++ [run]) = joinBefore sep runs ++ run := by
  induction runs with
  | nil => simp [joinBefore]
  | cons first runs ih =>
    cases runs with
    | nil => simp [join_cons_cons, joinBefore]
    | cons second runs =>
      rw [List.cons_append, List.cons_append, join_cons_cons, ← List.cons_append, ih]
      simp [joinBefore]

theorem joinBefore_append_singleton (runs : List (List α)) (run : List α) :
    joinBefore sep (runs ++ [run]) = join sep (runs ++ [run]) ++ [sep] := by
  rw [join_append_singleton]
  simp [joinBefore]

theorem mem_joinBefore {runs : List (List α)} {a : α} (h : a ∈ joinBefore sep runs) :
    a = sep ∨ ∃ run ∈ runs, a ∈ run := by
  obtain ⟨run, hrun, ha⟩ := List.mem_flatMap.mp h
  rcases List.mem_append.mp ha with ha | ha
  · exact .inr ⟨run, hrun, ha⟩
  · exact .inl (List.mem_singleton.mp ha)

theorem chunks_joinBefore (hsep : p sep = true) {runs : List (List α)}
    (h : ∀ run ∈ runs, IsChunk p run) (l : List α) :
    chunks p (joinBefore sep runs ++ l) = runs ++ chunks p l := by
  induction runs with
  | nil => rfl
  | cons run runs ih =>
    rw [show joinBefore sep (run :: runs) ++ l = run ++ sep :: (joinBefore sep runs ++ l) by
      simp [joinBefore], chunks_append_cons hsep, chunks_of_isChunk (h run List.mem_cons_self),
      ih fun r hr => h r (List.mem_cons_of_mem _ hr)]
    rfl

/-! ## Dropping at the end -/

variable {q : α → Bool}

theorem rdropWhile_append_of_ne_nil {a b : List α} (h : b.rdropWhile q ≠ []) :
    (a ++ b).rdropWhile q = a ++ b.rdropWhile q := by
  have hb : (b.reverse.dropWhile q).isEmpty = false := by
    rw [List.isEmpty_eq_false_iff]
    exact fun hnil => h (by rw [List.rdropWhile, hnil, List.reverse_nil])
  rw [List.rdropWhile, List.reverse_append, List.dropWhile_append, if_neg (by simp [hb]),
    List.reverse_append, List.reverse_reverse]
  rfl

theorem rdropWhile_append_of_nil {a b : List α} (h : b.rdropWhile q = []) :
    (a ++ b).rdropWhile q = a.rdropWhile q := by
  have hb : b.reverse.dropWhile q = [] := List.reverse_eq_nil_iff.mp h
  rw [List.rdropWhile, List.reverse_append, List.dropWhile_append, hb, List.isEmpty_nil,
    if_pos rfl]
  rfl

theorem rdropWhile_congr {r : α → Bool} {l : List α} (h : ∀ a ∈ l, q a = r a) :
    l.rdropWhile q = l.rdropWhile r := by
  induction l using List.reverseRecOn with
  | nil => rfl
  | append_singleton l a ih =>
    rw [List.rdropWhile_concat, List.rdropWhile_concat, h a (by simp),
      ih fun b hb => h b (List.mem_append_left _ hb)]

end HamZaboon.Library
