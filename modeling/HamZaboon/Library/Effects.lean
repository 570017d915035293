import Mathlib.Tactic.Common

/-! # Programs that write and may raise

A program over a state `σ` returns or raises, and what it has written before it
raises stays written: `EStateM` with no roll back.  `Ends` is its postcondition,
one for each of the two ends; the rules follow a program statement by statement,
through its handlers and its cleanup.
-/

namespace HamZaboon.Library

variable {σ ε α β : Type}

/-- Whichever way the program ends from `s`, it meets that end's condition. -/
def Ends (m : EStateM ε σ α) (s : σ) (Returns : α → σ → Prop) (Raises : ε → σ → Prop) : Prop :=
  match m s with
  | .ok a s' => Returns a s'
  | .error e s' => Raises e s'

namespace Ends
variable {m : EStateM ε σ α} {s : σ} {Q Q' : α → σ → Prop} {E E' : ε → σ → Prop}

theorem mono (h : Ends m s Q E) (hQ : ∀ a s', Q a s' → Q' a s') (hE : ∀ e s', E e s' → E' e s') :
    Ends m s Q' E' := by
  unfold Ends at h ⊢
  cases hm : m s with
  | ok a s' =>
    rw [hm] at h
    exact hQ a s' h
  | error e s' =>
    rw [hm] at h
    exact hE e s' h

theorem and (h : Ends m s Q E) (h' : Ends m s Q' E') :
    Ends m s (fun a s' => Q a s' ∧ Q' a s') fun e s' => E e s' ∧ E' e s' := by
  unfold Ends at h h' ⊢
  cases hm : m s with
  | ok a s' =>
    rw [hm] at h h'
    exact ⟨h, h'⟩
  | error e s' =>
    rw [hm] at h h'
    exact ⟨h, h'⟩

theorem pure {a : α} (h : Q a s) : Ends (Pure.pure a : EStateM ε σ α) s Q E := h

theorem throw {e : ε} (h : E e s) : Ends (MonadExcept.throw e : EStateM ε σ α) s Q E := h

theorem get {Q : σ → σ → Prop} (h : Q s s) : Ends (MonadState.get : EStateM ε σ σ) s Q E := h

theorem modify {f : σ → σ} {Q : PUnit → σ → Prop} (h : Q ⟨⟩ (f s)) :
    Ends (MonadStateOf.modifyGet fun s => (⟨⟩, f s) : EStateM ε σ PUnit) s Q E := h

theorem bind {k : α → EStateM ε σ β} {Q : β → σ → Prop}
    (h : Ends m s (fun a s' => Ends (k a) s' Q E) E) : Ends (m >>= k) s Q E := by
  unfold Ends at h ⊢
  change match EStateM.bind m k s with | .ok a s' => Q a s' | .error e s' => E e s'
  unfold EStateM.bind
  cases hm : m s with
  | ok a s' =>
    rw [hm] at h
    exact h
  | error e s' =>
    rw [hm] at h
    exact h

theorem bind_any {k : α → EStateM ε σ β} {Q : β → σ → Prop}
    (h : ∀ a s', Ends (k a) s' Q fun _ _ => True) : Ends (m >>= k) s Q fun _ _ => True := by
  apply bind
  unfold Ends
  cases m s with
  | ok a s' => exact h a s'
  | error e s' => exact trivial

theorem bind_run {k : α → EStateM ε σ β} {Q : β → σ → Prop}
    (h : ∀ a s', m s = .ok a s' → Ends (k a) s' Q fun _ _ => True) :
    Ends (m >>= k) s Q fun _ _ => True := by
  apply bind
  unfold Ends
  cases hm : m s with
  | ok a s' => exact h a s' hm
  | error e s' => exact trivial

theorem tryCatch {handle : ε → EStateM ε σ α}
    (h : Ends m s Q fun e s' => Ends (handle e) s' Q E) :
    Ends (MonadExcept.tryCatch m handle) s Q E := by
  unfold Ends at h ⊢
  change match EStateM.tryCatch m handle s with | .ok a s' => Q a s' | .error e s' => E e s'
  unfold EStateM.tryCatch
  cases hm : m s with
  | ok a s' =>
    rw [hm] at h
    exact h
  | error e s' =>
    rw [hm] at h
    exact h

end Ends

/-- `try … finally`, for a cleanup that does not raise. -/
def withCleanup (m : EStateM ε σ α) (cleanup : σ → σ) : EStateM ε σ α := fun s =>
  match m s with
  | .ok a s' => .ok a (cleanup s')
  | .error e s' => .error e (cleanup s')

theorem Ends.withCleanup {m : EStateM ε σ α} {s : σ} {Q : α → σ → Prop} {E : ε → σ → Prop}
    {cleanup : σ → σ}
    (h : Ends m s (fun a s' => Q a (cleanup s')) fun e s' => E e (cleanup s')) :
    Ends (Library.withCleanup m cleanup) s Q E := by
  unfold Ends at h ⊢
  unfold Library.withCleanup
  cases hm : m s with
  | ok a s' =>
    rw [hm] at h
    exact h
  | error e s' =>
    rw [hm] at h
    exact h

/-! ## What a program leaves alone -/

/-- Wherever the program returns, it has left this view of the state as it was. -/
def Keeps {γ : Type} (view : σ → γ) (m : EStateM ε σ α) : Prop :=
  ∀ s, Ends m s (fun _ s' => view s' = view s) fun _ _ => True

namespace Keeps
variable {γ : Type} {view : σ → γ} {m : EStateM ε σ α}

theorem pure (a : α) : Keeps view (Pure.pure a : EStateM ε σ α) := fun _ => Ends.pure rfl

theorem throw (e : ε) : Keeps view (MonadExcept.throw e : EStateM ε σ α) :=
  fun _ => Ends.throw trivial

theorem get : Keeps view (MonadState.get : EStateM ε σ σ) := fun _ => Ends.get rfl

theorem modify {f : σ → σ} (h : ∀ s, view (f s) = view s) :
    Keeps view (MonadStateOf.modifyGet fun s => (⟨⟩, f s) : EStateM ε σ PUnit) :=
  fun s => Ends.modify (h s)

theorem bind {k : α → EStateM ε σ β} (hm : Keeps view m) (hk : ∀ a, Keeps view (k a)) :
    Keeps view (m >>= k) := by
  intro s
  apply Ends.bind
  refine (hm s).mono (fun a s₁ h₁ => ?_) fun _ _ _ => trivial
  exact (hk a s₁).mono (fun _ s₂ h₂ => h₂.trans h₁) fun _ _ _ => trivial

theorem ite {c : Prop} [Decidable c] {m' : EStateM ε σ α} (hm : Keeps view m)
    (hm' : Keeps view m') : Keeps view (if c then m else m') := by
  split
  · exact hm
  · exact hm'

theorem forM {f : α → EStateM ε σ PUnit} {l : List α} (h : ∀ a ∈ l, Keeps view (f a)) :
    Keeps view (l.forM f) := by
  induction l with
  | nil => exact pure PUnit.unit
  | cons a l ih =>
    exact bind (h a List.mem_cons_self) fun _ => ih fun b hb => h b (List.mem_cons_of_mem a hb)

end Keeps

/-! ## What a program only adds to -/

/-- Wherever the program returns, the states at its two ends are related. -/
def Moves (R : σ → σ → Prop) (m : EStateM ε σ α) : Prop :=
  ∀ s, Ends m s (fun _ s' => R s s') fun _ _ => True

namespace Moves
variable {R : σ → σ → Prop} {m : EStateM ε σ α}

theorem of_keeps {γ : Type} {view : σ → γ} (hR : ∀ s s', view s' = view s → R s s')
    (h : Keeps view m) : Moves R m :=
  fun s => (h s).mono (fun _ s' hs' => hR s s' hs') fun _ _ _ => trivial

theorem run {a : α} {s s' : σ} (h : Moves R m) (hm : m s = .ok a s') : R s s' := by
  have hs := h s
  unfold Ends at hs
  rw [hm] at hs
  exact hs

theorem throw (e : ε) : Moves R (MonadExcept.throw e : EStateM ε σ α) := fun _ => Ends.throw trivial

theorem modify {f : σ → σ} (h : ∀ s, R s (f s)) :
    Moves R (MonadStateOf.modifyGet fun s => (⟨⟩, f s) : EStateM ε σ PUnit) :=
  fun s => Ends.modify (h s)

theorem ite {c : Prop} [Decidable c] {m' : EStateM ε σ α} (hm : Moves R m) (hm' : Moves R m') :
    Moves R (if c then m else m') := by
  split
  · exact hm
  · exact hm'

section Preorder
variable (hrefl : ∀ s, R s s) (htrans : ∀ a b c, R a b → R b c → R a c)
include hrefl

theorem pure (a : α) : Moves R (Pure.pure a : EStateM ε σ α) := fun s => Ends.pure (hrefl s)

theorem get : Moves R (MonadState.get : EStateM ε σ σ) := fun s => Ends.get (hrefl s)

omit hrefl in
include htrans in
theorem bind {k : α → EStateM ε σ β} (hm : Moves R m) (hk : ∀ a, Moves R (k a)) :
    Moves R (m >>= k) := by
  intro s
  apply Ends.bind
  refine (hm s).mono (fun a s₁ h₁ => ?_) fun _ _ _ => trivial
  exact (hk a s₁).mono (fun _ s₂ h₂ => htrans _ _ _ h₁ h₂) fun _ _ _ => trivial

include htrans in
theorem forM {f : α → EStateM ε σ PUnit} {l : List α} (h : ∀ a ∈ l, Moves R (f a)) :
    Moves R (l.forM f) := by
  induction l with
  | nil => exact pure hrefl PUnit.unit
  | cons a l ih =>
    exact bind htrans (h a List.mem_cons_self) fun _ => ih fun b hb => h b (List.mem_cons_of_mem a hb)

omit hrefl in
theorem and {Q : α → σ → Prop} {s : σ} (hm : Moves R m) (h : Ends m s Q fun _ _ => True) :
    Ends m s (fun a s' => Q a s' ∧ R s s') fun _ _ => True :=
  (h.and (hm s)).mono (fun _ _ h => h) fun _ _ _ => trivial

/-- What every turn of a loop establishes, and the later turns leave in place,
holds of all of them at its end. -/
theorem forM_all {P : α → σ → Prop} {f : α → EStateM ε σ PUnit} {l : List α}
    (hlast : ∀ a s s', P a s → R s s' → P a s') (hmoves : ∀ a ∈ l, Moves R (f a))
    (hturn : ∀ a ∈ l, ∀ s, Ends (f a) s (fun _ s' => P a s') fun _ _ => True)
    (htrans : ∀ a b c, R a b → R b c → R a c) (s : σ) :
    Ends (l.forM f) s (fun _ s' => ∀ a ∈ l, P a s') fun _ _ => True := by
  induction l generalizing s with
  | nil => exact Ends.pure nofun
  | cons a l ih =>
    apply Ends.bind
    refine (hturn a List.mem_cons_self s).mono (fun _ s₁ h₁ => ?_) fun _ _ _ => trivial
    have hrest : Moves R (l.forM f) :=
      forM hrefl htrans fun b hb => hmoves b (List.mem_cons_of_mem a hb)
    refine (hrest.and (ih (fun b hb => hmoves b (List.mem_cons_of_mem a hb))
      (fun b hb => hturn b (List.mem_cons_of_mem a hb)) s₁)).mono ?_ fun _ _ _ => trivial
    rintro _ s₂ ⟨hall, hmoved⟩ b hb
    rcases List.mem_cons.mp hb with rfl | hb
    · exact hlast _ s₁ s₂ h₁ hmoved
    · exact hall b hb

end Preorder

theorem forM_invariant {I : σ → Prop} {f : α → EStateM ε σ PUnit} {l : List α}
    (h : ∀ a ∈ l, Moves (fun s s' => I s → I s') (f a)) :
    Moves (fun s s' => I s → I s') (l.forM f) := by
  have htrans : ∀ a b c, (I a → I b) → (I b → I c) → I a → I c := fun _ _ _ hab hbc ha => hbc (hab ha)
  exact forM (fun _ ha => ha) htrans h

/-- A loop that keeps an invariant comes to a goal at one of its turns, and keeps
it from there on. -/
theorem forM_reaches {I T : σ → Prop} {f : α → EStateM ε σ PUnit} {l : List α} {a : α}
    (ha : a ∈ l) (hkeep : ∀ b ∈ l, Moves (fun s s' => I s → I s') (f b))
    (hreach : Moves (fun s s' => I s → T s') (f a))
    (hstay : ∀ b ∈ l, Moves (fun s s' => T s → T s') (f b)) :
    Moves (fun s s' => I s → T s') (l.forM f) := by
  induction l with
  | nil => cases ha
  | cons b l ih =>
    intro s
    apply Ends.bind
    rcases List.mem_cons.mp ha with rfl | ha
    · have hrest := forM_invariant fun c hc => hstay c (List.mem_cons_of_mem a hc)
      refine (hreach s).mono (fun _ s₁ h₁ => ?_) fun _ _ _ => trivial
      exact (hrest s₁).mono (fun _ _ h₂ h => h₂ (h₁ h)) fun _ _ _ => trivial
    · refine (hkeep b List.mem_cons_self s).mono (fun _ s₁ h₁ => ?_) fun _ _ _ => trivial
      have hrest := ih ha (fun c hc => hkeep c (List.mem_cons_of_mem b hc))
        fun c hc => hstay c (List.mem_cons_of_mem b hc)
      exact (hrest s₁).mono (fun _ _ h₂ h => h₂ (h₁ h)) fun _ _ _ => trivial

end Moves

theorem Keeps.run {γ : Type} {view : σ → γ} {m : EStateM ε σ α} {a : α} {s s' : σ}
    (h : Keeps view m) (hm : m s = .ok a s') : view s' = view s := by
  have hs := h s
  unfold Ends at hs
  rw [hm] at hs
  exact hs

end HamZaboon.Library
