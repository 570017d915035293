import Mathlib.Data.List.Basic
import Mathlib.Tactic.Common

/-! # Escaping by an escape character

A markup language with one escape character is a reader with modes: in a mode
some characters are active, and the escape character makes a special character,
or another escape character, literal.  A text for that reader is put together
from atoms: characters of the markup, and characters of data that stand with or
without an escape before them.  `Markup.intended` is the reading in which data
is data.

The reader finds it exactly when the atoms are `Inert` (`read_eq_intended_iff`):
no bare data is active, and no bare escape character stands before a character
that it makes literal.
-/

namespace HamZaboon.Library

/-- A character as a reader takes it. -/
inductive Token (α : Type)
  | literal (c : α)
  | active (c : α)
  deriving DecidableEq, Repr

/-- A piece of a text: data, with an escape before it or bare, or markup. -/
inductive Atom (α : Type)
  | escaped (c : α)
  | bare (c : α)
  | markup (c : α)
  deriving DecidableEq, Repr

/-- A markup language with modes `μ`. -/
structure Markup (α μ : Type) where
  escape : α
  special : α → Bool
  active : μ → α → Bool
  /-- The mode after a character that no escape stands before. -/
  next : μ → α → μ
  /-- The mode after a literal character. -/
  after : μ → μ
  active_escape : ∀ m, active m escape = false
  special_escape : special escape = false
  next_inactive : ∀ m c, active m c = false → next m c = after m

namespace Markup
variable {α μ : Type} (M : Markup α μ)

/-- The token of a character that no escape stands before. -/
def token (m : μ) (c : α) : Token α := if M.active m c then .active c else .literal c

def atomText : Atom α → List α
  | .escaped c => [M.escape, c]
  | .bare c => [c]
  | .markup c => [c]

def text (atoms : List (Atom α)) : List α := atoms.flatMap M.atomText

/-- The reading in which data is data. -/
def intended : μ → List (Atom α) → List (Token α)
  | _, [] => []
  | m, .escaped c :: atoms => .literal c :: intended (M.after m) atoms
  | m, .bare c :: atoms => .literal c :: intended (M.after m) atoms
  | m, .markup c :: atoms => M.token m c :: intended (M.next m c) atoms

@[simp] theorem token_escape (m : μ) : M.token m M.escape = .literal M.escape := by
  simp [token, M.active_escape]

@[simp] theorem next_escape (m : μ) : M.next m M.escape = M.after m :=
  M.next_inactive m _ (M.active_escape m)

theorem inactive_of_token {m : μ} {c : α} (h : M.token m c = .literal c) :
    M.active m c = false := by
  unfold token at h
  split at h
  · cases h
  · rename_i hinactive
    simpa using hinactive

theorem text_cons (a : Atom α) (atoms : List (Atom α)) :
    M.text (a :: atoms) = M.atomText a ++ M.text atoms := List.flatMap_cons

theorem length_intended (m : μ) (atoms : List (Atom α)) :
    (M.intended m atoms).length = atoms.length := by
  induction atoms generalizing m with
  | nil => rfl
  | cons a atoms ih => cases a <;> simp [intended, ih]

theorem text_append (a b : List (Atom α)) : M.text (a ++ b) = M.text a ++ M.text b :=
  List.flatMap_append

/-- The mode after atoms whose data is data. -/
def modeAfter : μ → List (Atom α) → μ
  | m, [] => m
  | m, .markup c :: atoms => modeAfter (M.next m c) atoms
  | m, .escaped _ :: atoms => modeAfter (M.after m) atoms
  | m, .bare _ :: atoms => modeAfter (M.after m) atoms

theorem modeAfter_append (m : μ) (a b : List (Atom α)) :
    M.modeAfter m (a ++ b) = M.modeAfter (M.modeAfter m a) b := by
  induction a generalizing m with
  | nil => rfl
  | cons x a ih => cases x <;> exact ih _

theorem intended_append (m : μ) (a b : List (Atom α)) :
    M.intended m (a ++ b) = M.intended m a ++ M.intended (M.modeAfter m a) b := by
  induction a generalizing m with
  | nil => rfl
  | cons x a ih => cases x <;> exact congrArg _ (ih _)

variable [DecidableEq α]

/-- What an escape makes literal. -/
def escapable (c : α) : Bool := M.special c || c = M.escape

def read : μ → List α → List (Token α)
  | _, [] => []
  | m, [c] => [M.token m c]
  | m, c :: d :: text =>
      if c = M.escape ∧ M.escapable d then .literal d :: read (M.after m) text
      else M.token m c :: read (M.next m c) (d :: text)

/-- Atoms as an escaping writes them: an escape stands before what it makes
literal, no bare escape before an escaped one, and the markup has none. -/
def Written : List (Atom α) → Prop
  | [] => True
  | .escaped c :: atoms => M.escapable c = true ∧ Written atoms
  | .bare c :: atoms => (c = M.escape → atoms.head? ≠ some (.escaped M.escape)) ∧ Written atoms
  | .markup c :: atoms => c ≠ M.escape ∧ Written atoms

/-- The next atom begins with a character that an escape before it makes literal
though it must not. -/
def Swallowed (m : μ) : List (Atom α) → Prop
  | [] => False
  | .escaped c :: _ => M.active m c = true
  | .bare c :: _ => M.escapable c = true
  | .markup c :: _ => M.escapable c = true

/-- Data stays data: no bare character is active, and no bare escape character
swallows what follows it. -/
def Inert : μ → List (Atom α) → Prop
  | _, [] => True
  | m, .escaped _ :: atoms => Inert (M.after m) atoms
  | m, .bare c :: atoms => M.active m c = false ∧
      (c = M.escape → ¬ M.Swallowed (M.after m) atoms) ∧ Inert (M.after m) atoms
  | m, .markup c :: atoms => Inert (M.next m c) atoms

instance decidableSwallowed (m : μ) : ∀ atoms, Decidable (M.Swallowed m atoms)
  | [] => inferInstanceAs (Decidable False)
  | .escaped c :: _ => inferInstanceAs (Decidable (M.active m c = true))
  | .bare c :: _ => inferInstanceAs (Decidable (M.escapable c = true))
  | .markup c :: _ => inferInstanceAs (Decidable (M.escapable c = true))

instance decidableInert : ∀ m atoms, Decidable (M.Inert m atoms)
  | _, [] => inferInstanceAs (Decidable True)
  | m, .escaped _ :: atoms => decidableInert (M.after m) atoms
  | m, .markup c :: atoms => decidableInert (M.next m c) atoms
  | m, .bare c :: atoms =>
      have := decidableInert (M.after m) atoms
      inferInstanceAs (Decidable (M.active m c = false ∧
        (c = M.escape → ¬ M.Swallowed (M.after m) atoms) ∧ M.Inert (M.after m) atoms))

/-! ## The reader, case by case -/

theorem read_cons {m : μ} {c : α} (h : c ≠ M.escape) (text : List α) :
    M.read m (c :: text) = M.token m c :: M.read (M.next m c) text := by
  cases text with
  | nil => rfl
  | cons d text => rw [read, if_neg (fun hc => h hc.1)]

theorem read_escaped (m : μ) {d : α} (h : M.escapable d = true) (text : List α) :
    M.read m (M.escape :: d :: text) = .literal d :: M.read (M.after m) text := by
  rw [read, if_pos ⟨rfl, h⟩]

theorem read_bare_escape (m : μ) {text : List α} (h : ∀ d ∈ text.head?, M.escapable d = false) :
    M.read m (M.escape :: text) = .literal M.escape :: M.read (M.after m) text := by
  cases text with
  | nil => simp [read]
  | cons d text =>
    have hd : M.escapable d = false := h d rfl
    rw [read, if_neg (by simp [hd]), token_escape, next_escape]

theorem length_read {atoms : List (Atom α)} (h : M.Written atoms) (m : μ) :
    (M.read m (M.text atoms)).length ≤ atoms.length ∧
      (M.read m (M.escape :: M.text atoms)).length ≤ atoms.length + 1 := by
  induction atoms generalizing m with
  | nil => simp [text, read]
  | cons a atoms ih =>
    -- an unescaped character, read alone or after a stray escape
    have hplain : ∀ c, M.Written atoms → ∀ m,
        (M.read m (c :: M.text atoms)).length ≤ atoms.length + 1 ∧
          (M.read m (M.escape :: c :: M.text atoms)).length ≤ atoms.length + 2 := by
      intro c hrest m
      have hone : ∀ m', (M.read m' (c :: M.text atoms)).length ≤ atoms.length + 1 := by
        intro m'
        by_cases hc : c = M.escape
        · exact hc ▸ (ih hrest m').2
        · rw [M.read_cons hc]
          exact Nat.succ_le_succ (ih hrest _).1
      refine ⟨hone m, ?_⟩
      by_cases hd : M.escapable c = true
      · rw [M.read_escaped m hd]
        have hle := (ih hrest (M.after m)).1
        simp only [List.length_cons]
        omega
      · rw [M.read_bare_escape m (by simpa using hd)]
        exact Nat.succ_le_succ (hone _)
    cases a with
    | escaped c =>
      obtain ⟨hc, hrest⟩ := h
      rw [text_cons]
      show (M.read m (M.escape :: c :: M.text atoms)).length ≤ _ ∧
        (M.read m (M.escape :: M.escape :: c :: M.text atoms)).length ≤ _
      have hescape : M.escapable M.escape = true := by simp [escapable]
      rw [M.read_escaped m hc, M.read_escaped m hescape]
      have hfirst := (ih hrest (M.after m)).1
      have hsecond := (hplain c hrest (M.after m)).1
      simp only [List.length_cons]
      omega
    | bare c => exact hplain c h.2 m
    | markup c => exact hplain c h.2 m

theorem head?_text {m : μ} {atoms : List (Atom α)} (h : ¬ M.Swallowed m atoms) :
    (∀ d ∈ (M.text atoms).head?, M.escapable d = false) ∨
      ∃ c rest, atoms = .escaped c :: rest ∧ M.active m c = false := by
  cases atoms with
  | nil => exact Or.inl (fun d hd => nomatch hd)
  | cons a atoms =>
    cases a with
    | escaped c => exact Or.inr ⟨c, atoms, rfl, by simpa [Swallowed] using h⟩
    | bare c =>
      refine Or.inl (fun d hd => ?_)
      obtain rfl : c = d := Option.some.inj hd
      simpa [Swallowed] using h
    | markup c =>
      refine Or.inl (fun d hd => ?_)
      obtain rfl : c = d := Option.some.inj hd
      simpa [Swallowed] using h

/-- Before an escaped character, a bare escape takes the escape for itself, and
leaves the character inactive if it is so. -/
theorem read_bare_before_escaped (m : μ) {c : α} {rest : List (Atom α)}
    (hwritten : M.Written (.bare M.escape :: .escaped c :: rest))
    (hc : M.active (M.after m) c = false) :
    M.read m (M.escape :: M.text (.escaped c :: rest)) =
      .literal M.escape :: M.read (M.after m) (M.text (.escaped c :: rest)) := by
  obtain ⟨hhead, hescapable, -⟩ := hwritten
  have hne : c ≠ M.escape := fun heq => hhead rfl (heq ▸ rfl)
  have hescape : M.escapable M.escape = true := by simp [escapable]
  rw [text_cons]
  show M.read m (M.escape :: M.escape :: c :: M.text rest) =
    .literal M.escape :: M.read (M.after m) (M.escape :: c :: M.text rest)
  rw [M.read_escaped m hescape, M.read_escaped _ hescapable, M.read_cons hne, token, hc,
    M.next_inactive _ c hc]
  rfl

theorem read_of_inert {atoms : List (Atom α)} (hwritten : M.Written atoms) :
    ∀ {m : μ}, M.Inert m atoms → M.read m (M.text atoms) = M.intended m atoms := by
  induction atoms with
  | nil => exact fun _ => rfl
  | cons a atoms ih =>
    intro m h
    cases a with
    | escaped c =>
      rw [text_cons]
      show M.read m (M.escape :: c :: M.text atoms) = _
      rw [M.read_escaped m hwritten.1, ih hwritten.2 h]
      rfl
    | markup c =>
      rw [text_cons]
      show M.read m (c :: M.text atoms) = _
      rw [M.read_cons hwritten.1, ih hwritten.2 h]
      rfl
    | bare c =>
      obtain ⟨hinactive, hescape, hrest⟩ := h
      have htail := ih hwritten.2 hrest
      rw [text_cons]
      show M.read m (c :: M.text atoms) = .literal c :: M.intended (M.after m) atoms
      by_cases hc : c = M.escape
      · subst hc
        rcases M.head?_text (hescape rfl) with hhead | ⟨d, rest, rfl, hd⟩
        · rw [M.read_bare_escape m hhead, htail]
        · rw [← htail, M.read_bare_before_escaped m hwritten hd]
      · rw [M.read_cons hc, M.next_inactive m c hinactive, htail, token, hinactive]
        rfl

/-- A bare escape that is read as data swallows nothing. -/
theorem inert_of_read_bare_escape {m : μ} {atoms : List (Atom α)}
    (hwritten : M.Written (.bare M.escape :: atoms))
    (hread : M.read m (M.escape :: M.text atoms) =
      .literal M.escape :: M.intended (M.after m) atoms) :
    ¬ M.Swallowed (M.after m) atoms ∧
      M.read (M.after m) (M.text atoms) = M.intended (M.after m) atoms := by
  -- what the escape would swallow is a token of its own in the intended reading
  have hplain : ∀ (c : α) (rest : List (Atom α)), M.Written rest →
      M.text atoms = c :: M.text rest → atoms.length = rest.length + 1 →
      M.escapable c = false ∧ M.read (M.after m) (M.text atoms) = M.intended (M.after m) atoms := by
    intro c rest hrest htext hlength
    by_cases hc : M.escapable c = true
    · rw [htext, M.read_escaped m hc] at hread
      have hle := (M.length_read hrest (M.after m)).1
      rw [(List.cons.inj hread).2, length_intended] at hle
      omega
    · have hkept : ∀ d ∈ (M.text atoms).head?, M.escapable d = false := by
        intro d hd
        rw [htext] at hd
        obtain rfl : c = d := Option.some.inj hd
        simpa using hc
      rw [M.read_bare_escape m hkept] at hread
      exact ⟨by simpa using hc, (List.cons.inj hread).2⟩
  cases atoms with
  | nil => exact ⟨id, rfl⟩
  | cons a rest =>
    cases a with
    | bare c =>
      obtain ⟨hc, htail⟩ := hplain c rest hwritten.2.2 rfl rfl
      exact ⟨by simp [Swallowed, hc], htail⟩
    | markup c =>
      obtain ⟨hc, htail⟩ := hplain c rest hwritten.2.2 rfl rfl
      exact ⟨by simp [Swallowed, hc], htail⟩
    | escaped c =>
      have hescape : M.escapable M.escape = true := by simp [escapable]
      have hne : c ≠ M.escape := fun heq => hwritten.1 rfl (heq ▸ rfl)
      have hpair : M.read m (M.escape :: M.escape :: c :: M.text rest) =
        .literal M.escape :: .literal c :: M.intended (M.after (M.after m)) rest := hread
      rw [M.read_escaped m hescape, M.read_cons hne] at hpair
      obtain ⟨htoken, hrest⟩ := List.cons.inj (List.cons.inj hpair).2
      have hinactive : M.active (M.after m) c = false := M.inactive_of_token htoken
      rw [M.next_inactive _ c hinactive] at hrest
      refine ⟨by simp [Swallowed, hinactive], ?_⟩
      show M.read (M.after m) (M.escape :: c :: M.text rest) = _
      rw [M.read_escaped _ hwritten.2.1, hrest]
      rfl

theorem inert_of_read {atoms : List (Atom α)} (hwritten : M.Written atoms) :
    ∀ {m : μ}, M.read m (M.text atoms) = M.intended m atoms → M.Inert m atoms := by
  induction atoms with
  | nil => exact fun _ => trivial
  | cons a atoms ih =>
    intro m h
    rw [text_cons] at h
    cases a with
    | escaped c =>
      have hread : M.read m (M.escape :: c :: M.text atoms) =
        .literal c :: M.intended (M.after m) atoms := h
      rw [M.read_escaped m hwritten.1] at hread
      exact ih hwritten.2 (List.cons.inj hread).2
    | markup c =>
      have hread : M.read m (c :: M.text atoms) =
        M.token m c :: M.intended (M.next m c) atoms := h
      rw [M.read_cons hwritten.1] at hread
      exact ih hwritten.2 (List.cons.inj hread).2
    | bare c =>
      have hread : M.read m (c :: M.text atoms) = .literal c :: M.intended (M.after m) atoms := h
      by_cases hc : c = M.escape
      · subst hc
        obtain ⟨hkept, hrest⟩ := M.inert_of_read_bare_escape hwritten hread
        exact ⟨M.active_escape m, fun _ => hkept, ih hwritten.2 hrest⟩
      · rw [M.read_cons hc] at hread
        obtain ⟨htoken, hrest⟩ := List.cons.inj hread
        have hinactive := M.inactive_of_token htoken
        rw [M.next_inactive m c hinactive] at hrest
        exact ⟨hinactive, fun heq => absurd heq hc, ih hwritten.2 hrest⟩

/-- **Escaping is sound exactly when the data is inert**: then, and only then, the
reader finds the markup that was meant and the data as it was. -/
theorem read_eq_intended_iff {atoms : List (Atom α)} (h : M.Written atoms) (m : μ) :
    M.read m (M.text atoms) = M.intended m atoms ↔ M.Inert m atoms :=
  ⟨M.inert_of_read h, M.read_of_inert h⟩

/-! ## Atoms put together -/

/-- Atoms that may follow a bare escape. -/
def WrittenAlone (atoms : List (Atom α)) : Prop :=
  M.Written atoms ∧ atoms.head? ≠ some (.escaped M.escape)

theorem written_append {a b : List (Atom α)} (ha : M.Written a) (hb : M.WrittenAlone b) :
    M.Written (a ++ b) := by
  induction a with
  | nil => exact hb.1
  | cons x a ih =>
    cases x with
    | escaped c => exact ⟨ha.1, ih ha.2⟩
    | markup c => exact ⟨ha.1, ih ha.2⟩
    | bare c =>
      refine ⟨fun hc => ?_, ih ha.2⟩
      cases a with
      | nil => exact hb.2
      | cons y a => exact ha.1 hc

theorem WrittenAlone.append {a b : List (Atom α)} (ha : M.WrittenAlone a) (hb : M.WrittenAlone b) :
    M.WrittenAlone (a ++ b) := by
  refine ⟨M.written_append ha.1 hb, ?_⟩
  cases a with
  | nil => exact hb.2
  | cons x a => exact ha.2

theorem writtenAlone_markup {c : α} (h : c ≠ M.escape) : M.WrittenAlone [.markup c] :=
  ⟨⟨h, trivial⟩, by simp⟩

theorem inert_append {m : μ} {a b : List (Atom α)} (h : ∀ c, .bare c ∈ a → c ≠ M.escape)
    (ha : M.Inert m a) (hb : M.Inert (M.modeAfter m a) b) : M.Inert m (a ++ b) := by
  induction a generalizing m with
  | nil => exact hb
  | cons x a ih =>
    have hrest : ∀ c, .bare c ∈ a → c ≠ M.escape := fun c hc => h c (List.mem_cons_of_mem _ hc)
    cases x with
    | escaped c => exact ih hrest ha hb
    | markup c => exact ih hrest ha hb
    | bare c =>
      refine ⟨ha.1, fun heq => absurd heq (h c (List.mem_cons_self ..)), ih hrest ha.2.2 hb⟩

end Markup

end HamZaboon.Library
