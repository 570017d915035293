import Mathlib.Data.List.Nodup
import Mathlib.Logic.Function.Basic
import Mathlib.Tactic.Common

/-! # Reservoirs

A stream of items, each of a level, is read once.  Of each level as many items are
held as its cap says; a later item is put in a place that is drawn, and is lost where
there is no such place.  How many items are held (`Reservoirs.filled_run`) and what
the generator is asked (`Reservoirs.run_logged`) do not depend on what it draws. -/

namespace HamZaboon.Library

/-- Items of type `α` held for levels `L`, with a generator whose states are `R`. -/
structure Reservoirs (L α R : Type) where
  seen : L → Nat
  held : L → List α
  rng : R

namespace Reservoirs
variable {L α β R : Type} [DecidableEq L]

def bump (seen : L → Nat) (level : L) : L → Nat := Function.update seen level (seen level + 1)

variable (caps : L → Nat)

/-- Nothing is drawn for the next item of the level. -/
def Quiet (seen : L → Nat) (level : L) : Prop := caps level = 0 ∨ seen level < caps level

instance (seen : L → Nat) (level : L) : Decidable (Quiet caps seen level) :=
  inferInstanceAs (Decidable (_ ∨ _))

/-- The items held, with one more, unless the level holds none. -/
def addHeld (held : L → List α) (level : L) (x : α) : L → List α :=
  if caps level = 0 then held else Function.update held level (held level ++ [x])

/-- The items held, with a new one in the place drawn, where there is such a place. -/
def place (held : L → List α) (level : L) (pick : Nat) (x : α) : L → List α :=
  Function.update held level
    (if pick < caps level then (held level).set pick x else held level)

variable (draw : R → Nat → Nat × R)

def offer (s : Reservoirs L α R) (level : L) (x : α) : Reservoirs L α R :=
  if caps level = 0 ∨ (s.held level).length < caps level then
    ⟨bump s.seen level, addHeld caps s.held level x, s.rng⟩
  else
    let (pick, rng) := draw s.rng (s.seen level + 1)
    ⟨bump s.seen level, place caps s.held level pick x, rng⟩

def run : Reservoirs L α R → List (L × α) → Reservoirs L α R
  | s, [] => s
  | s, (level, x) :: stream => run (offer caps draw s level x) stream

/-- What the generator is asked for a stream. -/
def bounds : (L → Nat) → List (L × α) → List Nat
  | _, [] => []
  | seen, (level, _) :: stream =>
      if Quiet caps seen level then bounds (bump seen level) stream
      else (seen level + 1) :: bounds (bump seen level) stream

/-- As many items are held as were seen, up to the cap. -/
def Filled (seen : L → Nat) (held : L → List α) : Prop :=
  ∀ level, (held level).length = min (caps level) (seen level)

variable {caps} {draw}

@[simp] theorem bump_self (seen : L → Nat) (level : L) : bump seen level level = seen level + 1 :=
  Function.update_self ..

theorem bump_of_ne {seen : L → Nat} {level other : L} (h : other ≠ level) :
    bump seen level other = seen other :=
  Function.update_of_ne h ..

theorem addHeld_self (hc : caps level ≠ 0) (held : L → List α) (x : α) :
    addHeld caps held level x level = held level ++ [x] := by
  rw [addHeld, if_neg hc, Function.update_self]

theorem addHeld_of_ne {level other : L} (h : other ≠ level) (held : L → List α) (x : α) :
    addHeld caps held level x other = held other := by
  unfold addHeld
  split
  · rfl
  · exact Function.update_of_ne h ..

theorem place_self (held : L → List α) (level : L) (pick : Nat) (x : α) :
    place caps held level pick x level =
      if pick < caps level then (held level).set pick x else held level :=
  Function.update_self ..

theorem place_of_ne {level other : L} (h : other ≠ level) (held : L → List α) (pick : Nat) (x : α) :
    place caps held level pick x other = held other :=
  Function.update_of_ne h ..

variable (caps) in
omit [DecidableEq L] in
theorem filled_empty : Filled caps (fun _ => 0) (fun _ => ([] : List α)) := fun level =>
  (Nat.min_zero (caps level)).symm

/-! ## One item -/

theorem offer_quiet {s : Reservoirs L α R} {level : L} (hf : Filled caps s.seen s.held)
    (hq : Quiet caps s.seen level) (x : α) :
    offer caps draw s level x = ⟨bump s.seen level, addHeld caps s.held level x, s.rng⟩ := by
  have hroom : caps level = 0 ∨ (s.held level).length < caps level := by
    rw [hf level]
    unfold Quiet at hq
    omega
  rw [offer, if_pos hroom]

theorem offer_drawn {s : Reservoirs L α R} {level : L} (hf : Filled caps s.seen s.held)
    (hq : ¬ Quiet caps s.seen level) (x : α) :
    offer caps draw s level x =
      ⟨bump s.seen level, place caps s.held level (draw s.rng (s.seen level + 1)).1 x,
        (draw s.rng (s.seen level + 1)).2⟩ := by
  have hfull : ¬ (caps level = 0 ∨ (s.held level).length < caps level) := by
    rw [hf level]
    unfold Quiet at hq
    omega
  rw [offer, if_neg hfull]

theorem filled_addHeld {seen : L → Nat} {held : L → List α} {level : L} (hf : Filled caps seen held)
    (hq : Quiet caps seen level) (x : α) :
    Filled caps (bump seen level) (addHeld caps held level x) := by
  intro other
  have hlevel := hf other
  by_cases h : other = level
  · subst h
    unfold Quiet at hq
    rw [bump_self]
    by_cases hc : caps other = 0
    · rw [addHeld, if_pos hc, hlevel, hc, Nat.zero_min, Nat.zero_min]
    · rw [addHeld_self hc, List.length_append, List.length_singleton, hlevel]
      omega
  · rw [bump_of_ne h, addHeld_of_ne h, hlevel]

theorem filled_place {seen : L → Nat} {held : L → List α} {level : L} (hf : Filled caps seen held)
    (hq : ¬ Quiet caps seen level) (pick : Nat) (x : α) :
    Filled caps (bump seen level) (place caps held level pick x) := by
  intro other
  have hlevel := hf other
  by_cases h : other = level
  · subst h
    have hlength : (place caps held other pick x other).length = (held other).length := by
      rw [place_self]
      split
      · exact List.length_set
      · rfl
    unfold Quiet at hq
    rw [hlength, bump_self, hlevel]
    omega
  · rw [bump_of_ne h, place_of_ne h, hlevel]

theorem offer_seen (s : Reservoirs L α R) (level : L) (x : α) :
    (offer caps draw s level x).seen = bump s.seen level := by
  unfold offer
  split <;> rfl

theorem filled_offer {s : Reservoirs L α R} (hf : Filled caps s.seen s.held) (level : L) (x : α) :
    Filled caps (offer caps draw s level x).seen (offer caps draw s level x).held := by
  by_cases hq : Quiet caps s.seen level
  · rw [offer_quiet hf hq]
    exact filled_addHeld hf hq x
  · rw [offer_drawn hf hq]
    exact filled_place hf hq _ x

theorem mem_addHeld {held : L → List α} {level other : L} {x y : α}
    (h : y ∈ addHeld caps held level x other) : y ∈ held other ∨ other = level ∧ y = x := by
  unfold addHeld at h
  split at h
  · exact Or.inl h
  · by_cases hl : other = level
    · subst hl
      rw [Function.update_self, List.mem_append, List.mem_singleton] at h
      exact h.imp_right fun hy => ⟨rfl, hy⟩
    · rw [Function.update_of_ne hl] at h
      exact Or.inl h

theorem mem_place {held : L → List α} {level other : L} {pick : Nat} {x y : α}
    (h : y ∈ place caps held level pick x other) : y ∈ held other ∨ other = level ∧ y = x := by
  by_cases hl : other = level
  · subst hl
    rw [place_self] at h
    split at h
    · exact (List.mem_or_eq_of_mem_set h).imp_right fun hy => ⟨rfl, hy⟩
    · exact Or.inl h
  · rw [place_of_ne hl] at h
    exact Or.inl h

theorem mem_offer {s : Reservoirs L α R} {level other : L} {x y : α}
    (h : y ∈ (offer caps draw s level x).held other) : y ∈ s.held other ∨ other = level ∧ y = x := by
  unfold offer at h
  split at h
  · exact mem_addHeld h
  · exact mem_place h

/-! ## A stream -/

theorem run_append (s : Reservoirs L α R) (a b : List (L × α)) :
    run caps draw s (a ++ b) = run caps draw (run caps draw s a) b := by
  induction a generalizing s with
  | nil => rfl
  | cons y a ih => exact ih (offer caps draw s y.1 y.2)

/-- The reservoirs are filled as far as the caps let them. -/
theorem filled_run {s : Reservoirs L α R} (hf : Filled caps s.seen s.held)
    (stream : List (L × α)) :
    Filled caps (run caps draw s stream).seen (run caps draw s stream).held := by
  induction stream generalizing s with
  | nil => exact hf
  | cons y stream ih => exact ih (filled_offer hf y.1 y.2)

theorem mem_run {s : Reservoirs L α R} {stream : List (L × α)} {level : L} {x : α}
    (h : x ∈ (run caps draw s stream).held level) : x ∈ s.held level ∨ (level, x) ∈ stream := by
  induction stream generalizing s with
  | nil => exact Or.inl h
  | cons y stream ih =>
    rcases ih h with h | h
    · rcases mem_offer h with h | ⟨rfl, rfl⟩
      · exact Or.inl h
      · exact Or.inr (List.mem_cons_self ..)
    · exact Or.inr (List.mem_cons_of_mem _ h)

/-! ## Different items -/

/-- The items held and the items to come are all different. -/
structure Distinct (held : L → List α) (stream : List (L × α)) : Prop where
  held_nodup : ∀ level, (held level).Nodup
  stream_nodup : (stream.map (·.2)).Nodup
  apart : ∀ level, ∀ x ∈ held level, x ∉ stream.map (·.2)

omit [DecidableEq L] in
theorem distinct_empty {stream : List (L × α)} (h : (stream.map (·.2)).Nodup) :
    Distinct (fun _ => []) stream :=
  ⟨fun _ => List.nodup_nil, h, fun _ _ hx => absurd hx List.not_mem_nil⟩

omit [DecidableEq L] in
theorem Distinct.not_mem {held : L → List α} {stream : List (L × α)} {level : L} {x : α}
    (h : Distinct held ((level, x) :: stream)) (other : L) : x ∉ held other := fun hx =>
  h.apart other x hx (List.mem_cons_self ..)

omit [DecidableEq L] in
theorem Distinct.head_not_mem {held : L → List α} {stream : List (L × α)} {level : L} {x : α}
    (h : Distinct held ((level, x) :: stream)) : x ∉ stream.map (·.2) :=
  (List.nodup_cons.mp h.stream_nodup).1

omit [DecidableEq L] in
theorem Distinct.tail {held held' : L → List α} {stream : List (L × α)} {level : L} {x : α}
    (h : Distinct held ((level, x) :: stream)) (hnodup : ∀ other, (held' other).Nodup)
    (hmem : ∀ other y, y ∈ held' other → y ∈ held other ∨ other = level ∧ y = x) :
    Distinct held' stream := by
  refine ⟨hnodup, (List.nodup_cons.mp h.stream_nodup).2, fun other y hy => ?_⟩
  rcases hmem other y hy with hy | ⟨-, rfl⟩
  · exact fun hstream => h.apart other y hy (List.mem_cons_of_mem _ hstream)
  · exact h.head_not_mem

theorem distinct_addHeld {held : L → List α} {stream : List (L × α)} {level : L} {x : α}
    (h : Distinct held ((level, x) :: stream)) : Distinct (addHeld caps held level x) stream := by
  refine h.tail (fun other => ?_) fun other y => mem_addHeld
  unfold addHeld
  split
  · exact h.held_nodup other
  · by_cases hl : other = level
    · subst hl
      rw [Function.update_self]
      exact List.nodup_append_comm.mp (List.nodup_cons.mpr ⟨h.not_mem other, h.held_nodup other⟩)
    · rw [Function.update_of_ne hl]
      exact h.held_nodup other

theorem distinct_place {held : L → List α} {stream : List (L × α)} {level : L} {x : α}
    (h : Distinct held ((level, x) :: stream)) (pick : Nat) :
    Distinct (place caps held level pick x) stream := by
  refine h.tail (fun other => ?_) fun other y => mem_place
  by_cases hl : other = level
  · subst hl
    rw [place_self]
    split
    · exact (h.held_nodup other).set (h.not_mem other)
    · exact h.held_nodup other
  · rw [place_of_ne hl]
    exact h.held_nodup other

theorem distinct_offer {s : Reservoirs L α R} {stream : List (L × α)} {level : L} {x : α}
    (h : Distinct s.held ((level, x) :: stream)) :
    Distinct (offer caps draw s level x).held stream := by
  unfold offer
  split
  · exact distinct_addHeld h
  · exact distinct_place h _

theorem nodup_run {s : Reservoirs L α R} {stream : List (L × α)} (h : Distinct s.held stream)
    (level : L) : ((run caps draw s stream).held level).Nodup := by
  induction stream generalizing s with
  | nil => exact h.held_nodup level
  | cons y stream ih => exact ih (distinct_offer h)

/-! ## What is asked -/

/-- A generator that notes what it is asked. -/
def logged (draw : R → Nat → Nat × R) (s : R × List Nat) (bound : Nat) : Nat × (R × List Nat) :=
  let (pick, rng) := draw s.1 bound
  (pick, rng, s.2 ++ [bound])

variable (caps draw) in
/-- What is asked depends on the stream alone. -/
theorem run_logged {s : Reservoirs L α (R × List Nat)} (hf : Filled caps s.seen s.held)
    (stream : List (L × α)) :
    (run caps (logged draw) s stream).rng.2 = s.rng.2 ++ bounds caps s.seen stream := by
  induction stream generalizing s with
  | nil => exact (List.append_nil _).symm
  | cons y stream ih =>
    rw [run, ih (filled_offer hf y.1 y.2), offer_seen]
    by_cases hq : Quiet caps s.seen y.1
    · rw [offer_quiet hf hq, bounds, if_pos hq]
    · rw [offer_drawn hf hq, bounds, if_neg hq]
      exact List.append_assoc _ [s.seen y.1 + 1] _

/-! ## Other items -/

/-- The reservoirs with each item replaced. -/
def map (f : α → β) (s : Reservoirs L α R) : Reservoirs L β R :=
  ⟨s.seen, fun level => (s.held level).map f, s.rng⟩

theorem offer_map (f : α → β) (s : Reservoirs L α R) (level : L) (x : α) :
    offer caps draw (s.map f) level (f x) = (offer caps draw s level x).map f := by
  have hadd : addHeld caps (s.map f).held level (f x) =
      fun other => (addHeld caps s.held level x other).map f := by
    funext other
    by_cases h : other = level
    · subst h
      by_cases hc : caps other = 0
      · simp only [addHeld, if_pos hc, map]
      · rw [addHeld_self hc, addHeld_self hc, List.map_append]
        rfl
    · rw [addHeld_of_ne h, addHeld_of_ne h]
      rfl
  have hplace : ∀ pick, place caps (s.map f).held level pick (f x) =
      fun other => (place caps s.held level pick x other).map f := by
    intro pick
    funext other
    by_cases h : other = level
    · subst h
      rw [place_self, place_self, apply_ite (List.map f), List.map_set]
      rfl
    · rw [place_of_ne h, place_of_ne h]
      rfl
  have hlength : ((s.map f).held level).length = (s.held level).length := List.length_map ..
  unfold offer
  rw [hlength]
  split
  · rw [hadd]
    rfl
  · dsimp only
    rw [hplace]
    rfl

variable (caps draw) in
theorem run_map (f : α → β) (s : Reservoirs L α R) (stream : List (L × α)) :
    run caps draw (s.map f) (stream.map fun y => (y.1, f y.2)) = (run caps draw s stream).map f := by
  induction stream generalizing s with
  | nil => rfl
  | cons y stream ih =>
    rw [List.map_cons, run, offer_map]
    exact ih (offer caps draw s y.1 y.2)

theorem bounds_map (f : α → β) (seen : L → Nat) (stream : List (L × α)) :
    bounds caps seen (stream.map fun y => (y.1, f y.2)) = bounds caps seen stream := by
  induction stream generalizing seen with
  | nil => rfl
  | cons y stream ih =>
    rw [List.map_cons, bounds, bounds, ih]

end Reservoirs

end HamZaboon.Library
