import HamZaboon.Library.Delimiters
import HamZaboon.Library.Results
import HamZaboon.Messages.Spans

/-! # Entities in MarkdownV2

The bold, italic, underlined, struck and hidden parts of a message of
`services/send_pretty.py`, as Telegram takes them from the rendered text: a delimiter closes
the innermost open entity where it is of that kind and opens one elsewhere, and two
underscores are read as one delimiter wherever they stand together.

The renderer writes each span on its own, so the underscore of an italic span and one that
comes right behind it are read as an underline.  Where no italic delimiter is followed so, a
message is read as it was built (`spans_nest_as_built_iff`).
-/

namespace HamZaboon
open Library

inductive EntityKind
  | bold | italic | underline | strikethrough | spoiler
  deriving DecidableEq, Repr

def mdv2Delimiters : Delimiters Char EntityKind where
  char
    | .bold => '*'
    | .italic => '_'
    | .underline => '_'
    | .strikethrough => '~'
    | .spoiler => '|'
  double
    | .bold | .italic | .strikethrough => false
    | .underline | .spoiler => true
  single c := if c = '*' then some .bold else if c = '_' then some .italic
    else if c = '~' then some .strikethrough else none
  doubled c := if c = '_' then some .underline else if c = '|' then some .spoiler else none
  single_char k := by cases k <;> decide
  doubled_eq k c := by
    cases k <;> grind

/-- A text as Telegram reads it; `none` where an entity stays open. -/
def readEntities (text : String) : Option (List (Nested Char EntityKind)) :=
  (mdv2Delimiters.lex (readMdv2 text)).bind assemble

mutual
def Span.nodes : Span → List (Nested Char EntityKind)
  | .plain text => text.toList.map .leaf
  | .bold children => [.entity .bold (spanNodes children)]
  | .italic children => [.entity .italic (spanNodes children)]
  | .underline children => [.entity .underline (spanNodes children)]
  | .strikethrough children => [.entity .strikethrough (spanNodes children)]
  | .spoiler children => [.entity .spoiler (spanNodes children)]
  | .newline => [.leaf '\n']
  | .code _ | .tgSpoiler _ | .marked _ | .link .. | .quote _ | .customEmoji .. | .richOnly => []

def spanNodes : List Span → List (Nested Char EntityKind)
  | [] => []
  | span :: spans => span.nodes ++ spanNodes spans
end

def messageNodes (lines : List (List Span)) : List (Nested Char EntityKind) :=
  [.leaf '\n'].intercalate (lines.map spanNodes)

mutual
/-- Texts without backslashes, line breaks, and entities none of which holds one of its own
kind. -/
def Span.Formatted (inside : List EntityKind) : Span → Prop
  | .plain text => '\\' ∉ text.toList
  | .bold children => .bold ∉ inside ∧ SpansFormatted (.bold :: inside) children
  | .italic children => .italic ∉ inside ∧ SpansFormatted (.italic :: inside) children
  | .underline children => .underline ∉ inside ∧ SpansFormatted (.underline :: inside) children
  | .strikethrough children =>
      .strikethrough ∉ inside ∧ SpansFormatted (.strikethrough :: inside) children
  | .spoiler children => .spoiler ∉ inside ∧ SpansFormatted (.spoiler :: inside) children
  | .newline => True
  | .code _ | .tgSpoiler _ | .marked _ | .link .. | .quote _ | .customEmoji .. | .richOnly => False

def SpansFormatted (inside : List EntityKind) : List Span → Prop
  | [] => True
  | span :: spans => span.Formatted inside ∧ SpansFormatted inside spans
end

/-- No delimiter of an italic entity is directly followed by one of an italic or underlined
entity. -/
def ItalicsApart (lines : List (List Span)) : Prop :=
  (nestedPieces (messageNodes lines)).IsChain fun a b =>
    ¬ (a = .delim .italic ∧ (b = .delim .italic ∨ b = .delim .underline))

/-! ## Formatted spans -/

mutual
theorem Span.exists_renderMdv2 : ∀ (span : Span) (inside : List EntityKind),
    span.Formatted inside → ∃ s, span.renderMdv2 = some s
  | .plain _, _, _ => ⟨_, rfl⟩
  | .newline, _, _ => ⟨_, rfl⟩
  | .bold children, _, h | .italic children, _, h | .underline children, _, h
  | .strikethrough children, _, h | .spoiler children, _, h => by
    obtain ⟨inner, hinner⟩ := exists_renderMdv2_spans children _ h.2
    exact ⟨_, by rw [Span.renderMdv2, hinner]; rfl⟩

theorem exists_renderMdv2_spans : ∀ (spans : List Span) (inside : List EntityKind),
    SpansFormatted inside spans → ∃ s, renderMdv2 spans = some s
  | [], _, _ => ⟨_, rfl⟩
  | span :: spans, inside, h => by
    obtain ⟨first, hfirst⟩ := span.exists_renderMdv2 inside h.1
    obtain ⟨rest, hrest⟩ := exists_renderMdv2_spans spans inside h.2
    exact ⟨first ++ rest, by rw [renderMdv2, hfirst, hrest]; rfl⟩
end

mutual
theorem Span.backslashFree_of_formatted : ∀ (span : Span) (inside : List EntityKind),
    span.Formatted inside → span.BackslashFree
  | .plain _, _, h => h
  | .newline, _, _ => trivial
  | .bold children, _, h | .italic children, _, h | .underline children, _, h
  | .strikethrough children, _, h | .spoiler children, _, h =>
      backslashFree_of_spansFormatted children _ h.2

theorem backslashFree_of_spansFormatted : ∀ (spans : List Span) (inside : List EntityKind),
    SpansFormatted inside spans → BackslashFree spans
  | [], _, _ => trivial
  | span :: spans, inside, h =>
      ⟨span.backslashFree_of_formatted inside h.1, backslashFree_of_spansFormatted spans inside h.2⟩
end

theorem head?_ne_of_not_mem {k : EntityKind} {inside : List EntityKind} (h : k ∉ inside) :
    inside.head? ≠ some k := fun heq => h (List.mem_of_head? heq)

mutual
theorem Span.alternate_nodes : ∀ (span : Span) (inside : List EntityKind),
    span.Formatted inside → NestedAlternate inside.head? span.nodes
  | .plain text, inside, _ => nestedAlternate_leaves inside.head? text.toList
  | .newline, _, _ => ⟨trivial, trivial⟩
  | .bold children, _, h | .italic children, _, h | .underline children, _, h
  | .strikethrough children, _, h | .spoiler children, _, h =>
      ⟨⟨head?_ne_of_not_mem h.1, alternate_spanNodes children _ h.2⟩, trivial⟩

theorem alternate_spanNodes : ∀ (spans : List Span) (inside : List EntityKind),
    SpansFormatted inside spans → NestedAlternate inside.head? (spanNodes spans)
  | [], _, _ => trivial
  | span :: spans, inside, h =>
      nestedAlternate_append (span.alternate_nodes inside h.1) (alternate_spanNodes spans inside h.2)
end

/-! ## What is read of a formatted message -/

/-- The tokens of nodes, as the renderer writes their pieces. -/
def writtenTokens (nodes : List (Nested Char EntityKind)) : List (Token Char) :=
  (nestedPieces nodes).flatMap mdv2Delimiters.spell

theorem writtenTokens_append (a b : List (Nested Char EntityKind)) :
    writtenTokens (a ++ b) = writtenTokens a ++ writtenTokens b := by
  rw [writtenTokens, nestedPieces_append, List.flatMap_append]
  rfl

theorem writtenTokens_leaves (chars : List Char) :
    writtenTokens (chars.map .leaf) = chars.map .literal := by
  rw [writtenTokens, nestedPieces_leaves]
  induction chars with
  | nil => rfl
  | cons c chars ih =>
    rw [List.map_cons, List.flatMap_cons, ih]
    rfl

theorem writtenTokens_entity (k : EntityKind) (children : List (Nested Char EntityKind)) :
    writtenTokens [.entity k children] = mdv2Delimiters.spell (.delim k) ++ writtenTokens children ++
      mdv2Delimiters.spell (.delim k) := by
  simp [writtenTokens, nestedPieces, Nested.pieces]

theorem intended_entity {mark : String} {k : EntityKind} {children : List Span}
    (hfree : BackslashFree children)
    (hmode : mdv2.modeAfter .text (markupAtoms mark) = .text)
    (hmark : mdv2.intended .text (markupAtoms mark) = mdv2Delimiters.spell (.delim k))
    (hchildren : mdv2.intended .text (spanAtoms children) = writtenTokens (spanNodes children)) :
    mdv2.intended .text (markupAtoms mark ++ spanAtoms children ++ markupAtoms mark) =
      writtenTokens [.entity k (spanNodes children)] := by
  have hinner : mdv2.modeAfter .text (markupAtoms mark ++ spanAtoms children) = .text := by
    rw [mdv2.modeAfter_append, hmode, (plainly_spanAtoms children hfree).mode]
  rw [mdv2.intended_append, hinner, mdv2.intended_append, hmode, hmark, hchildren,
    writtenTokens_entity]

mutual
theorem Span.intended_atoms : ∀ (span : Span) (inside : List EntityKind), span.Formatted inside →
    mdv2.intended .text span.atoms = writtenTokens span.nodes
  | .plain text, _, _ => by
    rw [Span.atoms, intended_textAtoms, Span.nodes, writtenTokens_leaves]
  | .newline, _, _ => by decide
  | .bold children, _, h | .italic children, _, h | .underline children, _, h
  | .strikethrough children, _, h | .spoiler children, _, h =>
      intended_entity (backslashFree_of_spansFormatted children _ h.2) (by decide) (by decide)
        (intended_spanAtoms children _ h.2)

theorem intended_spanAtoms : ∀ (spans : List Span) (inside : List EntityKind),
    SpansFormatted inside spans →
      mdv2.intended .text (spanAtoms spans) = writtenTokens (spanNodes spans)
  | [], _, _ => rfl
  | span :: spans, inside, h => by
    have hmode := (span.plainly_atoms (span.backslashFree_of_formatted inside h.1)).mode
    rw [spanAtoms, mdv2.intended_append, hmode, span.intended_atoms inside h.1,
      intended_spanAtoms spans inside h.2, spanNodes, writtenTokens_append]
end

section Messages
variable {lines : List (List Span)}

theorem intended_messageAtoms (h : ∀ spans ∈ lines, SpansFormatted [] spans) :
    mdv2.intended .text (messageAtoms lines) = writtenTokens (messageNodes lines) := by
  unfold messageAtoms messageNodes
  induction lines with
  | nil => rfl
  | cons spans lines ih =>
    have hspans := h spans List.mem_cons_self
    have hfirst := intended_spanAtoms spans [] hspans
    have hmode := (plainly_spanAtoms spans (backslashFree_of_spansFormatted spans [] hspans)).mode
    have hrest := ih fun line hline => h line (List.mem_cons_of_mem _ hline)
    cases lines with
    | nil => simpa using hfirst
    | cons next lines =>
      have hbreak : mdv2.intended .text (markupAtoms "\n") = writtenTokens [.leaf '\n'] := by decide
      have hbreakMode : mdv2.modeAfter .text (spanAtoms spans ++ markupAtoms "\n") = .text := by
        rw [mdv2.modeAfter_append, hmode]
        decide
      simp only [List.map_cons] at hrest ⊢
      rw [List.intercalate_cons_cons, List.intercalate_cons_cons, mdv2.intended_append, hbreakMode,
        mdv2.intended_append, hmode, hfirst, hbreak, hrest, writtenTokens_append, writtenTokens_append]

theorem alternate_messageNodes (h : ∀ spans ∈ lines, SpansFormatted [] spans) :
    NestedAlternate none (messageNodes lines) := by
  unfold messageNodes
  induction lines with
  | nil => trivial
  | cons spans lines ih =>
    have hfirst : NestedAlternate none (spanNodes spans) :=
      alternate_spanNodes spans [] (h spans List.mem_cons_self)
    have hrest := ih fun line hline => h line (List.mem_cons_of_mem _ hline)
    cases lines with
    | nil => simpa using hfirst
    | cons next lines =>
      rw [List.map_cons, List.map_cons, List.intercalate_cons_cons]
      exact nestedAlternate_append (nestedAlternate_append hfirst ⟨trivial, trivial⟩) hrest

theorem exists_renderMessage (h : ∀ spans ∈ lines, SpansFormatted [] spans) :
    ∃ s, renderMessage lines = some s := by
  have hlines : (lines.mapM renderMdv2).isSome = true := by
    rw [isSome_mapM]
    intro spans hspans
    obtain ⟨s, hs⟩ := exists_renderMdv2_spans spans [] (h spans hspans)
    rw [hs]
    rfl
  obtain ⟨rendered, hrendered⟩ := Option.isSome_iff_exists.mp hlines
  exact ⟨_, by rw [renderMessage, hrendered]; rfl⟩

theorem mdv2_touching_iff {a b : Piece Char EntityKind} : mdv2Delimiters.Touching a b ↔
    a = .delim .italic ∧ (b = .delim .italic ∨ b = .delim .underline) := by
  constructor
  · rintro ⟨k, k', rfl, rfl, hsingle, hchar, hdoubled⟩
    revert hsingle hchar hdoubled
    cases k <;> cases k' <;> decide
  · rintro ⟨rfl, rfl | rfl⟩
    · exact ⟨.italic, .italic, rfl, rfl, rfl, rfl, rfl⟩
    · exact ⟨.italic, .underline, rfl, rfl, rfl, rfl, rfl⟩

/-- **Nesting.**  A formatted message is rendered, and read as it was built, exactly where no
underscore of an italic entity stands directly in front of another underscore of an entity. -/
theorem spans_nest_as_built_iff (h : ∀ spans ∈ lines, SpansFormatted [] spans) :
    (∃ s, renderMessage lines = some s ∧ readEntities s = some (messageNodes lines)) ↔
      ItalicsApart lines := by
  obtain ⟨s, hs⟩ := exists_renderMessage h
  have htokens : readMdv2 s = writtenTokens (messageNodes lines) := by
    rw [read_of_backslashFree
      (fun spans hspans => backslashFree_of_spansFormatted spans [] (h spans hspans)) hs,
      intended_messageAtoms h]
  have hapart : mdv2Delimiters.lex (readMdv2 s) = some (nestedPieces (messageNodes lines)) ↔
      ItalicsApart lines := by
    rw [htokens, writtenTokens, Delimiters.lex_spell_iff, ItalicsApart]
    simp only [mdv2_touching_iff]
  have hread : readEntities s = some (messageNodes lines) ↔ ItalicsApart lines := by
    rw [← hapart, readEntities, Option.bind_eq_some_iff]
    constructor
    · rintro ⟨pieces, hpieces, hnodes⟩
      rw [hpieces, (assemble_eq_some_iff (alternate_messageNodes h)).mp hnodes]
    · exact fun hpieces => ⟨_, hpieces, (assemble_eq_some_iff (alternate_messageNodes h)).mpr rfl⟩
  rw [← hread]
  constructor
  · rintro ⟨s', hs', hnodes⟩
    obtain rfl := Option.some.inj (hs.symm.trans hs')
    exact hnodes
  · exact fun hnodes => ⟨s, hs, hnodes⟩

end Messages

/-- An underlined word with an italic part in it, and a bold line. -/
def underlinedPart : List (List Span) :=
  [[.underline [.plain "a", .italic [.plain "b"], .plain "c"]], [.bold [.plain "1."]]]

theorem spans_nest_underlinedPart :
    ∃ s, renderMessage underlinedPart = some s ∧
      readEntities s = some (messageNodes underlinedPart) :=
  (spans_nest_as_built_iff (by simp [underlinedPart, SpansFormatted, Span.Formatted])).mpr
    (by unfold ItalicsApart; decide)

/-- Two italic words side by side: the two underscores between them open an underline. -/
theorem adjacent_italics_unread :
    (∀ spans ∈ [[Span.italic [.plain "a"], .italic [.plain "b"]]], SpansFormatted [] spans) ∧
      renderMessage [[.italic [.plain "a"], .italic [.plain "b"]]] = some "_a__b_" ∧
      readEntities "_a__b_" = none := by
  refine ⟨by simp [SpansFormatted, Span.Formatted], by decide +kernel, by decide +kernel⟩

end HamZaboon
