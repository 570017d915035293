import Mathlib.Data.List.Forall2
import Mathlib.Logic.Function.Basic
import Mathlib.Tactic.Common

/-! # Computations that may fail

What a successful computation has computed on its way, for the steps of an
`Except` computation, for a table filled entry by entry in `Except`, and for a
function taken over a list in `Option`.
-/

namespace HamZaboon.Library

variable {α β ε : Type}

theorem bind_eq_ok {x : Except ε α} {f : α → Except ε β} {b : β} :
    (x >>= f) = .ok b ↔ ∃ a, x = .ok a ∧ f a = .ok b := by
  cases x with
  | error e => exact iff_of_false (fun h => by cases h) (fun ⟨_, h, _⟩ => by cases h)
  | ok a => exact ⟨fun h => ⟨a, rfl, h⟩, fun ⟨_, ha, h⟩ => by cases ha; exact h⟩

theorem map_eq_ok {x : Except ε α} {f : α → β} {b : β} :
    x.map f = .ok b ↔ ∃ a, x = .ok a ∧ f a = b := by
  cases x with
  | error e => exact iff_of_false (fun h => by cases h) (fun ⟨_, h, _⟩ => by cases h)
  | ok a =>
    refine ⟨fun h => ⟨a, rfl, Except.ok.inj h⟩, ?_⟩
    rintro ⟨_, ⟨⟩, rfl⟩
    rfl

theorem exists_map_eq_ok {x : Except ε α} {f : α → β} :
    (∃ b, x.map f = .ok b) ↔ ∃ a, x = .ok a := by
  cases x with
  | error e => exact iff_of_false (fun ⟨_, h⟩ => by cases h) (fun ⟨_, h⟩ => by cases h)
  | ok a => exact iff_of_true ⟨f a, rfl⟩ ⟨a, rfl⟩

/-- A table is filled when every entry of the list is computed; the others stay. -/
theorem foldlM_update {ι : Type} [DecidableEq ι] {load : ι → Except ε α} {table : ι → α}
    (keys : List ι) (init : ι → α) :
    keys.foldlM (fun table i => do
        let a ← load i
        return Function.update table i a) init = .ok table ↔
      (∀ i ∈ keys, load i = .ok (table i)) ∧ ∀ i ∉ keys, table i = init i := by
  induction keys generalizing init with
  | nil =>
    rw [List.foldlM_nil]
    refine ⟨fun h => ⟨nofun, fun _ _ => congrFun (Except.ok.inj h).symm _⟩, fun h => ?_⟩
    exact congrArg Except.ok (funext fun i => (h.2 i List.not_mem_nil).symm)
  | cons key keys ih =>
    rw [List.foldlM_cons]
    cases hload : load key with
    | error e =>
      refine iff_of_false nofun fun h => ?_
      have hhead := h.1 key List.mem_cons_self
      rw [hload] at hhead
      cases hhead
    | ok a =>
      change keys.foldlM _ (Function.update init key a) = _ ↔ _
      rw [ih]
      constructor
      · rintro ⟨hmem, hnot⟩
        refine ⟨fun i hi => ?_, fun i hi => ?_⟩
        · by_cases hrest : i ∈ keys
          · exact hmem i hrest
          · obtain rfl := (List.mem_cons.mp hi).resolve_right hrest
            rw [hload, hnot i hrest, Function.update_self]
        · rw [List.mem_cons, not_or] at hi
          rw [hnot i hi.2, Function.update_of_ne hi.1]
      · rintro ⟨hmem, hnot⟩
        refine ⟨fun i hi => hmem i (List.mem_cons_of_mem _ hi), fun i hi => ?_⟩
        by_cases hsame : i = key
        · subst hsame
          have hhead := hmem i List.mem_cons_self
          rw [hload] at hhead
          rw [Function.update_self]
          exact (Except.ok.inj hhead).symm
        · rw [Function.update_of_ne hsame]
          exact hnot i (by simp [hsame, hi])

/-- A preorder on states that relates the ends of every step relates the ends of
the whole computation. -/
theorem foldlM_related {σ : Type} {R : σ → σ → Prop} {f : σ → α → Except ε σ} {l : List α}
    (hrefl : ∀ s, R s s) (htrans : ∀ a b c, R a b → R b c → R a c)
    (hstep : ∀ a ∈ l, ∀ s s', f s a = .ok s' → R s s') {s s' : σ} (h : l.foldlM f s = .ok s') :
    R s s' := by
  induction l generalizing s with
  | nil =>
    obtain rfl := Except.ok.inj h
    exact hrefl s
  | cons a l ih =>
    rw [List.foldlM_cons] at h
    obtain ⟨mid, hmid, h⟩ := bind_eq_ok.mp h
    exact htrans _ _ _ (hstep a List.mem_cons_self s mid hmid)
      (ih (fun b hb => hstep b (List.mem_cons_of_mem a hb)) h)

theorem exists_bind {x : Option α} {f : α → Option β} {P Q : Prop} (hx : (∃ a, x = some a) ↔ P)
    (hf : ∀ a, x = some a → ((∃ b, f a = some b) ↔ Q)) : (∃ b, x.bind f = some b) ↔ P ∧ Q := by
  cases x with
  | none =>
    refine iff_of_false (fun ⟨_, h⟩ => by cases h) fun h => ?_
    obtain ⟨_, ha⟩ := hx.mpr h.1
    cases ha
  | some a =>
    rw [Option.bind_some, hf a rfl]
    exact (and_iff_right (hx.mp ⟨a, rfl⟩)).symm

theorem forall₂_of_mapM {f : α → Option β} {l : List α} {m : List β} (h : l.mapM f = some m) :
    List.Forall₂ (fun a b => f a = some b) l m := by
  induction l generalizing m with
  | nil =>
    obtain rfl : [] = m := by simpa using h
    exact .nil
  | cons a l ih =>
    rw [List.mapM_cons] at h
    obtain ⟨b, hb, h⟩ := Option.bind_eq_some_iff.mp h
    obtain ⟨bs, hbs, h⟩ := Option.bind_eq_some_iff.mp h
    obtain rfl : b :: bs = m := by simpa using h
    exact .cons hb (ih hbs)

theorem mapM_of_forall₂ {f : α → Option β} {l : List α} {m : List β}
    (h : List.Forall₂ (fun a b => f a = some b) l m) : l.mapM f = some m := by
  induction h with
  | nil => rfl
  | cons hab _ ih =>
    rw [List.mapM_cons, hab, ih]
    rfl

theorem isSome_mapM {f : α → Option β} {l : List α} :
    (l.mapM f).isSome = true ↔ ∀ a ∈ l, (f a).isSome = true := by
  induction l with
  | nil => simp
  | cons a l ih =>
    rw [List.forall_mem_cons, ← ih, List.mapM_cons]
    cases f a with
    | none => simp
    | some b => cases l.mapM f <;> simp

theorem foldlM_eq_some_iff {σ : Type} {step : σ → α → Option σ} {ok : α → Prop} (next : σ → α → σ)
    (hstep : ∀ s a s', step s a = some s' ↔ ok a ∧ s' = next s a) {l : List α} {s s' : σ} :
    l.foldlM step s = some s' ↔ (∀ a ∈ l, ok a) ∧ s' = l.foldl next s := by
  induction l generalizing s with
  | nil => simp [eq_comm]
  | cons a l ih =>
    rw [List.foldlM_cons, List.forall_mem_cons, List.foldl_cons]
    simp only [Option.bind_eq_bind, Option.bind_eq_some_iff, hstep, ih]
    constructor
    · rintro ⟨_, ⟨ha, rfl⟩, hl, rfl⟩
      exact ⟨⟨ha, hl⟩, rfl⟩
    · rintro ⟨⟨ha, hl⟩, rfl⟩
      exact ⟨_, ⟨ha, rfl⟩, hl, rfl⟩

theorem forall₂_of_mapM_ok {f : α → Except ε β} {l : List α} {m : List β}
    (h : l.mapM f = .ok m) : List.Forall₂ (fun a b => f a = .ok b) l m := by
  induction l generalizing m with
  | nil =>
    obtain rfl : [] = m := Except.ok.inj h
    exact .nil
  | cons a l ih =>
    rw [List.mapM_cons] at h
    obtain ⟨b, hb, h⟩ := bind_eq_ok.mp h
    obtain ⟨bs, hbs, h⟩ := bind_eq_ok.mp h
    obtain rfl : b :: bs = m := Except.ok.inj h
    exact .cons hb (ih hbs)

theorem mapM_ok_of_forall₂ {f : α → Except ε β} {l : List α} {m : List β}
    (h : List.Forall₂ (fun a b => f a = .ok b) l m) : l.mapM f = .ok m := by
  induction h with
  | nil => rfl
  | cons hab _ ih =>
    rw [List.mapM_cons, hab, ih]
    rfl

theorem exists_forall₂ {R : α → β → Prop} {l : List α} (h : ∀ a ∈ l, ∃ b, R a b) :
    ∃ m, List.Forall₂ R l m := by
  induction l with
  | nil => exact ⟨[], .nil⟩
  | cons a l ih =>
    obtain ⟨b, hab⟩ := h a List.mem_cons_self
    obtain ⟨m, hm⟩ := ih fun c hc => h c (List.mem_cons_of_mem a hc)
    exact ⟨b :: m, .cons hab hm⟩

theorem exists_right_of_forall₂ {R : α → β → Prop} {l : List α} {m : List β}
    (h : List.Forall₂ R l m) {a : α} (ha : a ∈ l) : ∃ b ∈ m, R a b := by
  induction h with
  | nil => cases ha
  | cons hab _ ih =>
    rcases List.mem_cons.mp ha with rfl | ha
    · exact ⟨_, List.mem_cons_self, hab⟩
    · obtain ⟨b, hb, hab⟩ := ih ha
      exact ⟨b, List.mem_cons_of_mem _ hb, hab⟩

theorem exists_left_of_forall₂ {R : α → β → Prop} {l : List α} {m : List β}
    (h : List.Forall₂ R l m) {b : β} (hb : b ∈ m) : ∃ a ∈ l, R a b :=
  exists_right_of_forall₂ h.flip hb

theorem exists_of_mem_mapM {f : α → Option β} {l : List α} {m : List β}
    (h : l.mapM f = some m) {b : β} (hb : b ∈ m) : ∃ a ∈ l, f a = some b :=
  exists_left_of_forall₂ (forall₂_of_mapM h) hb

theorem mapM_eq_map {f : α → Option β} {g : α → β} {l : List α}
    (h : ∀ a ∈ l, f a = some (g a)) : l.mapM f = some (l.map g) := by
  induction l with
  | nil => rfl
  | cons a l ih =>
    rw [List.mapM_cons, h a List.mem_cons_self, ih fun b hb => h b (List.mem_cons_of_mem a hb)]
    rfl

theorem exists_mapM {f : α → Option β} {l : List α} (h : ∀ a ∈ l, (f a).isSome = true) :
    ∃ m, l.mapM f = some m := by
  induction l with
  | nil => exact ⟨[], rfl⟩
  | cons a l ih =>
    obtain ⟨b, hb⟩ := Option.isSome_iff_exists.mp (h a List.mem_cons_self)
    obtain ⟨bs, hbs⟩ := ih fun c hc => h c (List.mem_cons_of_mem a hc)
    rw [List.mapM_cons, hb, hbs]
    exact ⟨b :: bs, rfl⟩

end HamZaboon.Library
