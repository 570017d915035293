import Mathlib.Data.List.Basic
import Mathlib.Data.List.Induction
import Mathlib.Tactic.Common

/-! # Walks along a list

A walk visits the entries of a list in order.  A turn at an entry either ends
the walk with a reply or goes on to the next entry; it leaves a view of what was
done there.  `walk_cases` says how every walk ends: at the end of the list with
all turns gone on, or at an entry whose turn stopped after all turns before it
had gone on (`Goes`).
-/

namespace HamZaboon.Library

/-- One turn: the view it leaves, and whether the walk ends there. -/
inductive Turn (σ ω ρ : Type) where
  | stop (view : ω) (reply : ρ) (s : σ)
  | go (view : ω) (s : σ)

structure Walk (σ ω ρ : Type) where
  views : List ω
  reply : ρ
  final : σ

variable {α σ ω ρ : Type} (turn : σ → α → Turn σ ω ρ) (finish : σ → ρ)

/-- Visit the entries until a turn stops; `finish` answers at the end. -/
def walk : σ → List α → Walk σ ω ρ
  | s, [] => ⟨[], finish s, s⟩
  | s, a :: rest =>
    match turn s a with
    | .stop v r s' => ⟨[v], r, s'⟩
    | .go v s' => { walk s' rest with views := v :: (walk s' rest).views }

/-- All turns at `xs` go on, from `s` to `s'`, and leave the views `vs`. -/
inductive Goes : σ → List α → List ω → σ → Prop
  | nil (s : σ) : Goes s [] [] s
  | cons {s s' s'' : σ} {a : α} {v : ω} {xs : List α} {vs : List ω} :
      turn s a = .go v s' → Goes s' xs vs s'' → Goes s (a :: xs) (v :: vs) s''

variable {turn finish}

theorem Goes.walk_append {s s' : σ} {xs : List α} {vs : List ω} (h : Goes turn s xs vs s')
    (finish : σ → ρ) (rest : List α) :
    walk turn finish s (xs ++ rest) =
      { walk turn finish s' rest with views := vs ++ (walk turn finish s' rest).views } := by
  induction h with
  | nil s => rfl
  | cons hturn _ ih => simp only [List.cons_append, walk, hturn, ih]

/-- **How a walk ends.** -/
theorem walk_cases (s : σ) (xs : List α) :
    (∃ vs s', Goes turn s xs vs s' ∧ walk turn finish s xs = ⟨vs, finish s', s'⟩) ∨
    ∃ pre a post vs s₁ v r s₂, xs = pre ++ a :: post ∧ Goes turn s pre vs s₁ ∧
      turn s₁ a = .stop v r s₂ ∧ walk turn finish s xs = ⟨vs ++ [v], r, s₂⟩ := by
  induction xs generalizing s with
  | nil => exact .inl ⟨[], s, .nil s, rfl⟩
  | cons a rest ih =>
    rcases hturn : turn s a with ⟨v, r, s'⟩ | ⟨v, s'⟩
    · exact .inr ⟨[], a, rest, [], s, v, r, s', rfl, .nil s, hturn, by simp [walk, hturn]⟩
    · rcases ih s' with ⟨vs, s'', hgoes, hwalk⟩ |
        ⟨pre, b, post, vs, s₁, w, r, s₂, rfl, hgoes, hstop, hwalk⟩
      · exact .inl ⟨v :: vs, s'', .cons hturn hgoes, by simp only [walk, hturn, hwalk]⟩
      · refine .inr ⟨a :: pre, b, post, v :: vs, s₁, w, r, s₂, rfl, .cons hturn hgoes, hstop, ?_⟩
        simp only [walk, hturn, hwalk, List.cons_append]

theorem Goes.append {s s' s'' : σ} {xs ys : List α} {vs ws : List ω}
    (h : Goes turn s xs vs s') (h' : Goes turn s' ys ws s'') :
    Goes turn s (xs ++ ys) (vs ++ ws) s'' := by
  induction h with
  | nil => exact h'
  | cons hturn _ ih => exact .cons hturn (ih h')

theorem exists_goes {s : σ} {xs : List α}
    (h : ∀ pre a post vs s₁, xs = pre ++ a :: post → Goes turn s pre vs s₁ →
      ∃ v s₂, turn s₁ a = .go v s₂) : ∃ vs s', Goes turn s xs vs s' := by
  induction xs using List.reverseRecOn with
  | nil => exact ⟨[], s, .nil s⟩
  | append_singleton xs a ih =>
    have hxs : ∃ vs s', Goes turn s xs vs s' := by
      refine ih fun pre b post vs s₁ hsplit => h pre b (post ++ [a]) vs s₁ ?_
      rw [hsplit, List.append_assoc, List.cons_append]
    obtain ⟨vs, s₁, hgoes⟩ := hxs
    obtain ⟨v, s₂, hgo⟩ := h xs a [] vs s₁ rfl hgoes
    exact ⟨vs ++ [v], s₂, hgoes.append (.cons hgo (.nil s₂))⟩

theorem Goes.invariant {I : σ → Prop} {s s' : σ} {xs : List α} {vs : List ω}
    (h : Goes turn s xs vs s')
    (hturn : ∀ a ∈ xs, ∀ s v s', turn s a = .go v s' → I s → I s') (hs : I s) : I s' := by
  induction h with
  | nil => exact hs
  | cons hgo _ ih =>
    refine ih (fun a ha => hturn a (List.mem_cons_of_mem _ ha)) ?_
    exact hturn _ List.mem_cons_self _ _ _ hgo hs

theorem Goes.split {s s' : σ} {xs : List α} {before after : List ω} {v : ω}
    (h : Goes turn s xs (before ++ v :: after) s') :
    ∃ pre a post s₁ s₂, xs = pre ++ a :: post ∧ Goes turn s pre before s₁ ∧
      turn s₁ a = .go v s₂ ∧ Goes turn s₂ post after s' := by
  induction before generalizing s xs with
  | nil =>
    cases h with
    | cons hturn hrest => exact ⟨[], _, _, s, _, rfl, .nil s, hturn, hrest⟩
  | cons w before ih =>
    cases h with
    | cons hturn hrest =>
      obtain ⟨pre, a, post, s₁, s₂, rfl, hpre, hgo, hpost⟩ := ih hrest
      exact ⟨_ :: pre, a, post, s₁, s₂, rfl, .cons hturn hpre, hgo, hpost⟩

theorem Goes.map_view {β : Type} {view : ω → β} {key : α → β}
    (hview : ∀ s a v s', turn s a = .go v s' → view v = key a) {s s' : σ} {xs : List α}
    {vs : List ω} (h : Goes turn s xs vs s') : vs.map view = xs.map key := by
  induction h with
  | nil => rfl
  | cons hturn _ ih => rw [List.map_cons, List.map_cons, ih, hview _ _ _ _ hturn]

theorem views_ne_nil (s : σ) (a : α) (rest : List α) :
    (walk turn finish s (a :: rest)).views ≠ [] := by
  rcases hturn : turn s a with ⟨v, r, s'⟩ | ⟨v, s'⟩ <;> simp [walk, hturn]

theorem turn_of_mem_views {s : σ} {xs : List α} {v : ω}
    (h : v ∈ (walk turn finish s xs).views) :
    ∃ s₁ a, a ∈ xs ∧ ((∃ s₂, turn s₁ a = .go v s₂) ∨ ∃ r s₂, turn s₁ a = .stop v r s₂) := by
  induction xs generalizing s with
  | nil => exact absurd h List.not_mem_nil
  | cons a rest ih =>
    rcases hturn : turn s a with ⟨w, r, s'⟩ | ⟨w, s'⟩
    · simp only [walk, hturn, List.mem_singleton] at h
      subst h
      exact ⟨s, a, List.mem_cons_self, .inr ⟨r, s', hturn⟩⟩
    · simp only [walk, hturn, List.mem_cons] at h
      rcases h with rfl | h
      · exact ⟨s, a, List.mem_cons_self, .inl ⟨s', hturn⟩⟩
      · obtain ⟨s₁, b, hb, hleft⟩ := ih h
        exact ⟨s₁, b, List.mem_cons_of_mem _ hb, hleft⟩

/-- What holds of an entry whose turn goes on after entries it holds of, holds of
all entries whose turns go on. -/
theorem Goes.forall_entries {P : α → Prop} {s s' : σ} {xs : List α} {vs : List ω}
    (h : Goes turn s xs vs s')
    (hP : ∀ pre a post ws s₁ v s₂, xs = pre ++ a :: post → Goes turn s pre ws s₁ →
      (∀ b ∈ pre, P b) → turn s₁ a = .go v s₂ → P a) : ∀ a ∈ xs, P a := by
  suffices hall : ∀ (done : List α) ws s₀, Goes turn s₀ done ws s → (∀ b ∈ done, P b) →
      (∀ pre a post ws s₁ v s₂, done ++ xs = pre ++ a :: post → Goes turn s₀ pre ws s₁ →
        (∀ b ∈ pre, P b) → turn s₁ a = .go v s₂ → P a) → ∀ a ∈ xs, P a from
    hall [] [] s (.nil s) (fun _ hb => absurd hb List.not_mem_nil) hP
  clear hP
  induction h with
  | nil => exact fun _ _ _ _ _ _ a ha => absurd ha List.not_mem_nil
  | @cons s s' s'' a v xs vs hturn hrest ih =>
    intro done ws s₀ hdone hall hP
    have ha : P a := hP done a xs ws s v s' rfl hdone hall hturn
    have hdone' : Goes turn s₀ (done ++ [a]) (ws ++ [v]) s' :=
      hdone.append (.cons hturn (.nil s'))
    have hall' : ∀ b ∈ done ++ [a], P b := by
      intro b hb
      rcases List.mem_append.mp hb with hb | hb
      · exact hall b hb
      · exact List.mem_singleton.mp hb ▸ ha
    rw [List.append_cons] at hP
    intro b hb
    rcases List.mem_cons.mp hb with rfl | hb
    · exact ha
    · exact ih _ _ _ hdone' hall' hP b hb

end HamZaboon.Library
