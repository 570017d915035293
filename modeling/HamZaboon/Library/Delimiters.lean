import HamZaboon.Library.Escaping
import Mathlib.Data.List.Chain

/-! # Entities between delimiters

A text with entities, each between two copies of its delimiter: a delimiter closes the
innermost open entity where it is of that kind and opens one elsewhere.  Written out, such
a text is read back as it was built, where no entity holds one of its own kind
(`assemble_eq_some_iff`).

A delimiter is one active character or the same one twice, and the reader takes two where it
can.  So it finds the pieces that were written exactly where no single one touches a
delimiter of the same character (`lex_spell_iff`).
-/

namespace HamZaboon.Library

/-- A piece of a text: a character of it, or a delimiter. -/
inductive Piece (α κ : Type)
  | char (c : α)
  | delim (k : κ)
  deriving DecidableEq, Repr

/-- A text with entities in it. -/
inductive Nested (α κ : Type)
  | leaf (c : α)
  | entity (k : κ) (children : List (Nested α κ))
  deriving Repr

section Nesting
variable {α κ : Type}

mutual
def Nested.pieces : Nested α κ → List (Piece α κ)
  | .leaf c => [.char c]
  | .entity k children => .delim k :: nestedPieces children ++ [.delim k]

def nestedPieces : List (Nested α κ) → List (Piece α κ)
  | [] => []
  | node :: nodes => node.pieces ++ nestedPieces nodes
end

mutual
/-- No entity holds one of its own kind, and the outermost are not of the kind around them. -/
def Nested.Alternates (around : Option κ) : Nested α κ → Prop
  | .leaf _ => True
  | .entity k children => around ≠ some k ∧ NestedAlternate (some k) children

/-- The same of nodes. -/
def NestedAlternate (around : Option κ) : List (Nested α κ) → Prop
  | [] => True
  | node :: nodes => node.Alternates around ∧ NestedAlternate around nodes
end

theorem nestedPieces_append (a b : List (Nested α κ)) :
    nestedPieces (a ++ b) = nestedPieces a ++ nestedPieces b := by
  induction a with
  | nil => rfl
  | cons node a ih => rw [List.cons_append, nestedPieces, nestedPieces, ih, List.append_assoc]

theorem nestedPieces_leaves (chars : List α) :
    nestedPieces (chars.map .leaf) = chars.map (.char : α → Piece α κ) := by
  induction chars with
  | nil => rfl
  | cons c chars ih =>
    rw [List.map_cons, nestedPieces, ih]
    rfl

theorem nestedAlternate_append {around : Option κ} {a b : List (Nested α κ)}
    (ha : NestedAlternate around a) (hb : NestedAlternate around b) :
    NestedAlternate around (a ++ b) := by
  induction a with
  | nil => exact hb
  | cons node a ih => exact ⟨ha.1, ih ha.2⟩

theorem nestedAlternate_leaves (around : Option κ) (chars : List α) :
    NestedAlternate around (chars.map (.leaf : α → Nested α κ)) := by
  induction chars with
  | nil => trivial
  | cons c chars ih => exact ⟨trivial, ih⟩

/-! ## The reader of pieces -/

/-- What a reader has found in the innermost open entity, and the entities around it with
what stands in front of each. -/
abbrev OpenEntities (α κ : Type) := List (Nested α κ) × List (κ × List (Nested α κ))

variable [DecidableEq κ]

def place : OpenEntities α κ → Piece α κ → OpenEntities α κ
  | (found, around), .char c => (found ++ [.leaf c], around)
  | (found, []), .delim k => ([], [(k, found)])
  | (found, (k', front) :: around), .delim k =>
      if k' = k then (front ++ [.entity k found], around)
      else ([], (k, found) :: (k', front) :: around)

/-- The text that pieces stand for, with every entity closed. -/
def assemble (pieces : List (Piece α κ)) : Option (List (Nested α κ)) :=
  match pieces.foldl place ([], []) with
  | (found, []) => some found
  | _ => none

omit [DecidableEq κ] in
/-- The pieces in front of the innermost open entity. -/
def frontPieces : List (κ × List (Nested α κ)) → List (Piece α κ)
  | [] => []
  | (k, front) :: around => frontPieces around ++ nestedPieces front ++ [.delim k]

theorem pieces_place (s : OpenEntities α κ) (p : Piece α κ) :
    frontPieces (place s p).2 ++ nestedPieces (place s p).1 =
      frontPieces s.2 ++ nestedPieces s.1 ++ [p] := by
  obtain ⟨found, around⟩ := s
  cases p with
  | char c =>
    show frontPieces around ++ nestedPieces (found ++ [.leaf c]) = _
    rw [nestedPieces_append, List.append_assoc]
    rfl
  | delim k =>
    cases around with
    | nil =>
      show frontPieces [(k, found)] ++ nestedPieces [] = _
      simp [frontPieces, nestedPieces]
    | cons frame around =>
      obtain ⟨k', front⟩ := frame
      by_cases hk : k' = k
      · subst hk
        rw [place, if_pos rfl]
        simp [frontPieces, nestedPieces_append, nestedPieces, Nested.pieces]
      · rw [place, if_neg hk]
        simp [frontPieces, nestedPieces]

theorem pieces_foldl_place (pieces : List (Piece α κ)) (s : OpenEntities α κ) :
    frontPieces (pieces.foldl place s).2 ++ nestedPieces (pieces.foldl place s).1 =
      frontPieces s.2 ++ nestedPieces s.1 ++ pieces := by
  induction pieces generalizing s with
  | nil => simp
  | cons p pieces ih => rw [List.foldl_cons, ih, pieces_place, List.append_assoc, List.singleton_append]

theorem pieces_of_assemble {pieces : List (Piece α κ)} {nodes : List (Nested α κ)}
    (h : assemble pieces = some nodes) : nestedPieces nodes = pieces := by
  have hkept := pieces_foldl_place pieces ([], [])
  unfold assemble at h
  split at h
  · rename_i found hfound
    obtain rfl := Option.some.inj h
    rw [hfound] at hkept
    simpa [frontPieces, nestedPieces] using hkept
  · cases h

mutual
/-- A node is read where its entity is not of the kind of the innermost open one. -/
theorem Nested.foldl_place : ∀ (node : Nested α κ) (found : List (Nested α κ))
    (around : List (κ × List (Nested α κ))), node.Alternates (around.head?.map (·.1)) →
      node.pieces.foldl place (found, around) = (found ++ [node], around)
  | .leaf c, found, around, _ => rfl
  | .entity k children, found, around, h => by
    have hopen : place (found, around) (.delim k) = ([], (k, found) :: around) := by
      cases around with
      | nil => rfl
      | cons frame around =>
        obtain ⟨k', front⟩ := frame
        exact if_neg fun hk => h.1 (congrArg some hk)
    have hinner := foldl_place_nested children [] ((k, found) :: around) h.2
    rw [Nested.pieces, List.cons_append, List.foldl_cons, hopen, List.foldl_append, hinner,
      List.nil_append]
    show place (children, (k, found) :: around) (.delim k) = _
    exact if_pos rfl

theorem foldl_place_nested : ∀ (nodes found : List (Nested α κ))
    (around : List (κ × List (Nested α κ))), NestedAlternate (around.head?.map (·.1)) nodes →
      (nestedPieces nodes).foldl place (found, around) = (found ++ nodes, around)
  | [], found, around, _ => by rw [nestedPieces, List.foldl_nil, List.append_nil]
  | node :: nodes, found, around, h => by
    rw [nestedPieces, List.foldl_append, node.foldl_place found around h.1,
      foldl_place_nested nodes _ around h.2, List.append_assoc, List.singleton_append]
end

/-- **Nesting.**  Where no entity holds one of its own kind, a text is read from its pieces
and from no others. -/
theorem assemble_eq_some_iff {pieces : List (Piece α κ)} {nodes : List (Nested α κ)}
    (h : NestedAlternate none nodes) : assemble pieces = some nodes ↔ pieces = nestedPieces nodes := by
  refine ⟨fun hread => (pieces_of_assemble hread).symm, ?_⟩
  rintro rfl
  rw [assemble, foldl_place_nested nodes [] [] h, List.nil_append]

end Nesting

/-! ## Delimiters of one or two characters -/

/-- Delimiters: each is one character or the same one twice. -/
structure Delimiters (α κ : Type) where
  char : κ → α
  double : κ → Bool
  /-- The delimiter of one such character. -/
  single : α → Option κ
  /-- The delimiter of two such characters. -/
  doubled : α → Option κ
  single_char : ∀ k, double k = false → single (char k) = some k
  doubled_eq : ∀ k c, doubled c = some k ↔ double k = true ∧ c = char k

namespace Delimiters
variable {α κ : Type} (D : Delimiters α κ)

def spell : Piece α κ → List (Token α)
  | .char c => [.literal c]
  | .delim k => if D.double k then [.active (D.char k), .active (D.char k)] else [.active (D.char k)]

/-- The pieces of tokens, two characters for one delimiter where they can be; `none` for an
active character that is no delimiter. -/
def lex [DecidableEq α] : List (Token α) → Option (List (Piece α κ))
  | [] => some []
  | .literal c :: tokens => (lex tokens).map fun pieces => .char c :: pieces
  | [.active c] => (D.single c).map fun k => [.delim k]
  | .active c :: next :: tokens =>
      match if next = .active c then D.doubled c else none with
      | some k => (lex tokens).map fun pieces => .delim k :: pieces
      | none => (D.single c).bind fun k =>
          (lex (next :: tokens)).map fun pieces => .delim k :: pieces

/-- A single delimiter and one that begins with its character, where two of them are another
delimiter. -/
def Touching (a b : Piece α κ) : Prop :=
  ∃ k k', a = .delim k ∧ b = .delim k' ∧ D.double k = false ∧ D.char k' = D.char k ∧
    (D.doubled (D.char k)).isSome

def firstToken : Piece α κ → Token α
  | .char c => .literal c
  | .delim k => .active (D.char k)

theorem head?_spell (pieces : List (Piece α κ)) :
    (pieces.flatMap D.spell).head? = pieces.head?.map D.firstToken := by
  cases pieces with
  | nil => rfl
  | cons p pieces =>
    rw [List.flatMap_cons]
    cases p with
    | char c => rfl
    | delim k =>
      rw [spell]
      cases D.double k <;> rfl

variable [DecidableEq α] {tokens : List (Token α)} {k : κ}

theorem lex_double (h : D.double k = true) :
    D.lex (.active (D.char k) :: .active (D.char k) :: tokens) =
      (D.lex tokens).map fun pieces => .delim k :: pieces := by
  rw [lex, if_pos rfl, (D.doubled_eq k _).mpr ⟨h, rfl⟩]

theorem lex_single (h : D.double k = false)
    (hnext : tokens.head? = some (.active (D.char k)) → D.doubled (D.char k) = none) :
    D.lex (.active (D.char k) :: tokens) = (D.lex tokens).map fun pieces => .delim k :: pieces := by
  cases tokens with
  | nil =>
    show (D.single (D.char k)).map (fun k => [Piece.delim k]) = _
    rw [D.single_char k h]
    rfl
  | cons next tokens =>
    have hnone : (if next = .active (D.char k) then D.doubled (D.char k) else none) = none := by
      split
      · rename_i heq
        exact hnext (congrArg some heq)
      · rfl
    rw [lex, hnone, D.single_char k h]
    rfl

theorem lex_touching (h : D.double k = false) (hnext : tokens.head? = some (.active (D.char k)))
    (hdoubled : (D.doubled (D.char k)).isSome) {pieces : List (Piece α κ)} :
    D.lex (.active (D.char k) :: tokens) ≠ some (.delim k :: pieces) := by
  obtain ⟨k', hk'⟩ := Option.isSome_iff_exists.mp hdoubled
  cases tokens with
  | nil => cases hnext
  | cons next tokens =>
    obtain rfl : next = .active (D.char k) := Option.some.inj hnext
    rw [lex, if_pos rfl, hk']
    intro heq
    obtain ⟨rest, -, hrest⟩ := Option.map_eq_some_iff.mp heq
    obtain rfl : k' = k := Piece.delim.inj (List.cons.inj hrest).1
    have htwice := ((D.doubled_eq k' _).mp hk').1
    rw [h] at htwice
    cases htwice

/-- **Delimiters.**  The pieces that were written are found exactly where no single delimiter
touches one of its character. -/
theorem lex_spell_iff (pieces : List (Piece α κ)) :
    D.lex (pieces.flatMap D.spell) = some pieces ↔ pieces.IsChain fun a b => ¬ D.Touching a b := by
  induction pieces with
  | nil => exact iff_of_true rfl .nil
  | cons p pieces ih =>
    -- where the first piece is found, the rest decides
    have hfound : D.lex ((p :: pieces).flatMap D.spell) =
        ((D.lex (pieces.flatMap D.spell)).map fun rest => p :: rest) →
        (D.lex ((p :: pieces).flatMap D.spell) = some (p :: pieces) ↔
          pieces.IsChain fun a b => ¬ D.Touching a b) := by
      intro heq
      rw [heq, ← ih]
      simp
    rw [List.isChain_cons]
    cases p with
    | char c =>
      rw [hfound rfl]
      refine ⟨fun h => ⟨fun b _ htouch => ?_, h⟩, fun h => h.2⟩
      obtain ⟨k, k', heq, -⟩ := htouch
      cases heq
    | delim k =>
      cases hdouble : D.double k with
      | true =>
        have hspell : (Piece.delim k :: pieces).flatMap D.spell =
            .active (D.char k) :: .active (D.char k) :: pieces.flatMap D.spell := by
          rw [List.flatMap_cons, spell, if_pos hdouble]
          rfl
        rw [hfound (by rw [hspell, D.lex_double hdouble])]
        refine ⟨fun h => ⟨fun b _ htouch => ?_, h⟩, fun h => h.2⟩
        obtain ⟨k₁, k', heq, -, hsingle, -⟩ := htouch
        obtain rfl := Piece.delim.inj heq
        rw [hdouble] at hsingle
        cases hsingle
      | false =>
        have hspell : (Piece.delim k :: pieces).flatMap D.spell =
            .active (D.char k) :: pieces.flatMap D.spell := by
          rw [List.flatMap_cons, spell, if_neg (by simp [hdouble])]
          rfl
        by_cases htouch : ∃ b ∈ pieces.head?, D.Touching (.delim k) b
        · obtain ⟨b, hb, hab⟩ := htouch
          refine iff_of_false ?_ fun h => h.1 b hb hab
          obtain ⟨k₁, k', heq, rfl, -, hchar, hdoubled⟩ := hab
          obtain rfl := Piece.delim.inj heq
          rw [hspell]
          refine D.lex_touching hdouble ?_ hdoubled
          rw [D.head?_spell, show pieces.head? = some _ from hb, Option.map_some, firstToken, hchar]
        · have hapart : ∀ b ∈ pieces.head?, ¬ D.Touching (.delim k) b :=
            fun b hb hab => htouch ⟨b, hb, hab⟩
          rw [hfound ?_]
          · exact ⟨fun h => ⟨hapart, h⟩, fun h => h.2⟩
          · rw [hspell]
            refine D.lex_single hdouble fun hnext => ?_
            by_contra hdoubled
            rw [D.head?_spell] at hnext
            obtain ⟨b, hb, hactive⟩ := Option.map_eq_some_iff.mp hnext
            refine hapart b hb ?_
            cases b with
            | char c => cases hactive
            | delim k' =>
              exact ⟨k, k', rfl, rfl, hdouble, Token.active.inj hactive,
                Option.isSome_iff_ne_none.mpr hdoubled⟩

end Delimiters

end HamZaboon.Library
