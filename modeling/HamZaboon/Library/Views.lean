import HamZaboon.Library.Effects

/-! # Programs over a part of the state

A program over the states `τ` is run inside the states `σ`, of which they are a part.
A program over `σ` then simulates one over `τ` when the part moves as it does,
whatever happens to the rest; and what it does at both of its ends, by the rules of
`Ends`.
-/

namespace HamZaboon.Library

variable {σ τ ε α β : Type}

/-! ## A relation at both ends -/

/-- Whichever way the program ends, the states at its two ends are related. -/
def BothEnds (R : σ → σ → Prop) (m : EStateM ε σ α) : Prop :=
  ∀ s, Ends m s (fun _ s' => R s s') fun _ s' => R s s'

namespace BothEnds
variable {R : σ → σ → Prop} {m : EStateM ε σ α}
variable (hrefl : ∀ s, R s s) (htrans : ∀ a b c, R a b → R b c → R a c)

theorem modify {f : σ → σ} (h : ∀ s, R s (f s)) :
    BothEnds R (MonadStateOf.modifyGet fun s => (⟨⟩, f s) : EStateM ε σ PUnit) :=
  fun s => Ends.modify (h s)

include hrefl in
theorem pure (a : α) : BothEnds R (Pure.pure a : EStateM ε σ α) := fun s => Ends.pure (hrefl s)

theorem ite {c : Prop} [Decidable c] {m' : EStateM ε σ α} (hm : BothEnds R m) (hm' : BothEnds R m') :
    BothEnds R (if c then m else m') := by
  split
  · exact hm
  · exact hm'

include htrans in
theorem bind {k : α → EStateM ε σ β} (hm : BothEnds R m) (hk : ∀ a, BothEnds R (k a)) :
    BothEnds R (m >>= k) := by
  intro s
  apply Ends.bind
  refine (hm s).mono (fun a s₁ h₁ => ?_) fun _ _ h => h
  exact (hk a s₁).mono (fun _ s₂ h₂ => htrans _ _ _ h₁ h₂) fun _ s₂ h₂ => htrans _ _ _ h₁ h₂

include htrans in
theorem tryCatch {handle : ε → EStateM ε σ α} (hm : BothEnds R m) (hh : ∀ e, BothEnds R (handle e)) :
    BothEnds R (MonadExcept.tryCatch m handle) := by
  intro s
  apply Ends.tryCatch
  refine (hm s).mono (fun _ _ h => h) fun e s₁ h₁ => ?_
  exact (hh e s₁).mono (fun _ s₂ h₂ => htrans _ _ _ h₁ h₂) fun _ s₂ h₂ => htrans _ _ _ h₁ h₂

include htrans in
theorem withCleanup {cleanup : σ → σ} (hm : BothEnds R m) (hc : ∀ s, R s (cleanup s)) :
    BothEnds R (Library.withCleanup m cleanup) := by
  intro s
  apply Ends.withCleanup
  exact (hm s).mono (fun _ s₁ h₁ => htrans _ _ _ h₁ (hc s₁)) fun _ s₁ h₁ => htrans _ _ _ h₁ (hc s₁)

include hrefl htrans in
theorem forM {f : α → EStateM ε σ PUnit} {l : List α} (h : ∀ a ∈ l, BothEnds R (f a)) :
    BothEnds R (l.forM f) := by
  induction l with
  | nil => exact pure hrefl PUnit.unit
  | cons a l ih =>
    exact bind htrans (h a List.mem_cons_self) fun _ => ih fun b hb => h b (List.mem_cons_of_mem a hb)

end BothEnds

/-! ## The part and the whole -/

/-- How a program ends, seen through `view`. -/
def viewResult (view : σ → τ) : EStateM.Result ε σ α → EStateM.Result ε τ α
  | .ok a s => .ok a (view s)
  | .error e s => .error e (view s)

/-- A program over the part that `view` reads and `put` writes, in the whole. -/
def onPart (view : σ → τ) (put : σ → τ → σ) (m : EStateM ε τ α) : EStateM ε σ α := fun s =>
  match m (view s) with
  | .ok a t => .ok a (put s t)
  | .error e t => .error e (put s t)

theorem Ends.onPart {view : σ → τ} {put : σ → τ → σ} {m : EStateM ε τ α} {s : σ}
    {Q : α → σ → Prop} {E : ε → σ → Prop}
    (h : Ends m (view s) (fun a t => Q a (put s t)) fun e t => E e (put s t)) :
    Ends (Library.onPart view put m) s Q E := by
  unfold Ends at h ⊢
  unfold Library.onPart
  cases hm : m (view s) with
  | ok a t =>
    rw [hm] at h
    exact h
  | error e t =>
    rw [hm] at h
    exact h

theorem BothEnds.onPart {view : σ → τ} {put : σ → τ → σ} {R : σ → σ → Prop} {m : EStateM ε τ α}
    (h : ∀ s t, R s (put s t)) : BothEnds R (Library.onPart view put m) := by
  intro s
  apply Ends.onPart
  unfold Ends
  cases m (view s) with
  | ok a t => exact h s t
  | error e t => exact h s t

/-- Seen through `view`, the one program does what the other does. -/
def Simulates (view : σ → τ) (m : EStateM ε σ α) (m' : EStateM ε τ α) : Prop :=
  ∀ s, viewResult view (m s) = m' (view s)

namespace Simulates
variable {view : σ → τ} {m : EStateM ε σ α} {m' : EStateM ε τ α}

theorem pure (a : α) : Simulates view (Pure.pure a : EStateM ε σ α) (Pure.pure a) := fun _ => rfl

theorem silent {f : σ → σ} (h : ∀ s, view (f s) = view s) :
    Simulates view (MonadStateOf.modifyGet fun s => (⟨⟩, f s) : EStateM ε σ PUnit)
      (Pure.pure ⟨⟩) :=
  fun s => congrArg (EStateM.Result.ok PUnit.unit) (h s)

theorem onPart {put : σ → τ → σ} (hput : ∀ s t, view (put s t) = t) (m' : EStateM ε τ α) :
    Simulates view (Library.onPart view put m') m' := by
  intro s
  unfold Library.onPart
  cases m' (view s) with
  | ok a t => exact congrArg (EStateM.Result.ok a) (hput s t)
  | error e t => exact congrArg (EStateM.Result.error e) (hput s t)

theorem ite {c : Prop} [Decidable c] {n : EStateM ε σ α} {n' : EStateM ε τ α}
    (hm : Simulates view m m') (hn : Simulates view n n') :
    Simulates view (if c then m else n) (if c then m' else n') := by
  split
  · exact hm
  · exact hn

theorem bind {k : α → EStateM ε σ β} {k' : α → EStateM ε τ β} (hm : Simulates view m m')
    (hk : ∀ a, Simulates view (k a) (k' a)) : Simulates view (m >>= k) (m' >>= k') := by
  intro s
  change viewResult view (EStateM.bind m k s) = EStateM.bind m' k' (view s)
  unfold EStateM.bind
  rw [← hm s]
  cases m s with
  | ok a t => exact hk a t
  | error e t => rfl

theorem bind_silent {k : α → EStateM ε σ α} (hm : Simulates view m m')
    (hk : ∀ a, Simulates view (k a) (Pure.pure a)) : Simulates view (m >>= k) m' := by
  have h : Simulates view (m >>= k) (m' >>= Pure.pure) := bind hm hk
  rwa [bind_pure] at h

theorem silent_bind {a : β} {n : EStateM ε σ β} {k : β → EStateM ε σ α}
    (hn : Simulates view n (Pure.pure a)) (hk : Simulates view (k a) m') :
    Simulates view (n >>= k) m' := by
  intro s
  change viewResult view (EStateM.bind n k s) = m' (view s)
  have hs : viewResult view (n s) = .ok a (view s) := hn s
  unfold EStateM.bind
  cases hend : n s with
  | ok b t =>
    rw [hend] at hs
    obtain ⟨rfl, hview⟩ := EStateM.Result.ok.inj hs
    rw [← hview]
    exact hk t
  | error e t =>
    rw [hend] at hs
    cases hs

theorem forM {f : α → EStateM ε σ PUnit} {f' : α → EStateM ε τ PUnit} {l : List α}
    (h : ∀ a ∈ l, Simulates view (f a) (f' a)) : Simulates view (l.forM f) (l.forM f') := by
  induction l with
  | nil => exact pure PUnit.unit
  | cons a l ih =>
    exact bind (h a List.mem_cons_self) fun _ => ih fun b hb => h b (List.mem_cons_of_mem a hb)

theorem tryCatch {handle : ε → EStateM ε σ α} {handle' : ε → EStateM ε τ α}
    (hm : Simulates view m m') (hh : ∀ e, Simulates view (handle e) (handle' e)) :
    Simulates view (MonadExcept.tryCatch m handle) (MonadExcept.tryCatch m' handle') := by
  intro s
  change viewResult view (EStateM.tryCatch m handle s) = EStateM.tryCatch m' handle' (view s)
  unfold EStateM.tryCatch
  rw [← hm s]
  cases m s with
  | ok a t => rfl
  | error e t => exact hh e t

theorem withCleanup {cleanup : σ → σ} {cleanup' : τ → τ} (hm : Simulates view m m')
    (hc : ∀ s, view (cleanup s) = cleanup' (view s)) :
    Simulates view (Library.withCleanup m cleanup) (Library.withCleanup m' cleanup') := by
  intro s
  unfold Library.withCleanup
  rw [← hm s]
  cases m s with
  | ok a t => exact congrArg (EStateM.Result.ok a) (hc t)
  | error e t => exact congrArg (EStateM.Result.error e) (hc t)

end Simulates

end HamZaboon.Library
