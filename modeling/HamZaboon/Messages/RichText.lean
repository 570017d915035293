import HamZaboon.Messages.Spans
import Mathlib.Algebra.Ring.Nat

/-! # Span trees in Rich Markdown

`services/send_pretty.py`: the Rich Markdown renderer of span trees and tables.
`_escape_rich` is written apart from the delimiters of the renderer, and leaves
out the dollar sign of `Math`; so a rendered tree is read back as it was meant
exactly when no plain text has a dollar sign and no formula ends in an open
backslash, and a table has one line for each row exactly when no text in it
breaks the line (`rich_rendering_iff`).
-/

namespace HamZaboon
open Library

inductive RichSpan
  | plain (text : String)
  | bold (children : List RichSpan)
  | italic (children : List RichSpan)
  | underline (children : List RichSpan)
  | strikethrough (children : List RichSpan)
  | marked (children : List RichSpan)
  | spoiler (children : List RichSpan)
  | quote (children : List RichSpan)
  | heading (level : Int) (children : List RichSpan)
  | math (expr : String) (block : Bool)

/-- A cell of a `Table`: one span, or a tuple of spans. -/
inductive RichCell
  | span (span : RichSpan)
  | spans (spans : List RichSpan)

/-- The characters of `_RICH_ESCAPE_RE`. -/
def richEscapes : List Char := "\\*_~|`[]()#><=-+.!".toList

def escapeRich (text : String) : String :=
  String.ofList (text.toList.flatMap fun c => if c ∈ richEscapes then ['\\', c] else [c])

/-- `"\n>\n> ".join(rendered.split("\n"))`. -/
def quoteParagraphs (rendered : String) : String :=
  String.ofList (rendered.toList.flatMap fun c => if c = '\n' then "\n>\n> ".toList else [c])

/-- `"#" * level`. -/
def headingMarks (level : Int) : String := String.ofList (List.replicate level.toNat '#')

/-- The delimiter of a formula. -/
def mathMark (block : Bool) : String := if block then "$$" else "$"

mutual
/-- One span of `_render_rich`. -/
def RichSpan.render : RichSpan → String
  | .plain text => escapeRich text
  | .bold children => "**" ++ renderRich children ++ "**"
  | .italic children => "*" ++ renderRich children ++ "*"
  | .underline children => "__" ++ renderRich children ++ "__"
  | .strikethrough children => "~~" ++ renderRich children ++ "~~"
  | .marked children => "==" ++ renderRich children ++ "=="
  | .spoiler children => "||" ++ renderRich children ++ "||"
  | .quote children => "> " ++ quoteParagraphs (renderRich children)
  | .heading level children => headingMarks level ++ " " ++ renderRich children
  | .math expr block => mathMark block ++ expr ++ mathMark block

def renderRich : List RichSpan → String
  | [] => ""
  | span :: spans => span.render ++ renderRich spans
end

def renderCell : RichCell → String
  | .span span => renderRich [span]
  | .spans spans => renderRich spans

def tableLine (cells : List String) : String := "| " ++ " | ".intercalate cells ++ " |"

/-- The lines of a table: the header and its alignment row, and the rows. -/
def tableLines (header : Option (List RichCell)) (rows : List (List RichCell)) : List String :=
  (if (header.getD []).isEmpty then []
    else [tableLine ((header.getD []).map renderCell),
      tableLine ((header.getD []).map fun _ => "---")]) ++
    rows.map fun row => tableLine (row.map renderCell)

def richTable (header : Option (List RichCell)) (rows : List (List RichCell)) : String :=
  "\n".intercalate (tableLines header rows)

/-! ## The reader -/

/-- The characters that the renderer emits as markup. -/
def richMarkup : List Char := "*_~|`[]()#><=$!".toList

/-- The scan of a rich text: a backslash makes the next character literal. -/
def rich : Markup Char Unit where
  escape := '\\'
  special c := c ≠ '\\'
  active _ c := c ∈ richMarkup
  next _ _ := ()
  after _ := ()
  active_escape _ := by decide
  special_escape := by decide
  next_inactive _ _ _ := rfl

/-- A rich text as the scan takes it. -/
def readRich (text : String) : List (Token Char) := rich.read () text.toList

/-! ## What a tree means -/

/-- The tokens of characters that the renderer puts in. -/
def marks (text : String) : List (Token Char) := text.toList.map (rich.token ())

/-- The tokens of a formula: a backslash in it is the formula's own. -/
def exprTokens : List Char → List (Token Char)
  | [] => []
  | ['\\'] => [.literal '\\']
  | '\\' :: d :: rest => .literal d :: exprTokens rest
  | c :: rest => rich.token () c :: exprTokens rest

/-- The tokens of a quoted text: a line break becomes an empty line of the quote. -/
def quoteTokens (inner : List (Token Char)) : List (Token Char) :=
  inner.flatMap fun t => if t = .literal '\n' then marks "\n>\n> " else [t]

mutual
/-- The tokens of a span: its delimiters are markup, its plain texts are literal. -/
def RichSpan.tokens : RichSpan → List (Token Char)
  | .plain text => text.toList.map .literal
  | .bold children => marks "**" ++ richTokens children ++ marks "**"
  | .italic children => marks "*" ++ richTokens children ++ marks "*"
  | .underline children => marks "__" ++ richTokens children ++ marks "__"
  | .strikethrough children => marks "~~" ++ richTokens children ++ marks "~~"
  | .marked children => marks "==" ++ richTokens children ++ marks "=="
  | .spoiler children => marks "||" ++ richTokens children ++ marks "||"
  | .quote children => marks "> " ++ quoteTokens (richTokens children)
  | .heading level children => marks (headingMarks level) ++ marks " " ++ richTokens children
  | .math expr block => marks (mathMark block) ++ exprTokens expr.toList ++ marks (mathMark block)

def richTokens : List RichSpan → List (Token Char)
  | [] => []
  | span :: spans => span.tokens ++ richTokens spans
end

/-- The text ends in a backslash that no backslash stands before, pair by pair. -/
def openEscape : List Char → Bool
  | [] => false
  | ['\\'] => true
  | '\\' :: _ :: rest => openEscape rest
  | _ :: rest => openEscape rest

mutual
/-- No plain text of the span has a dollar sign, and no formula ends in an open
backslash. -/
def RichSpan.Dollarless : RichSpan → Prop
  | .plain text => '$' ∉ text.toList
  | .math expr _ => openEscape expr.toList = false
  | .bold children | .italic children | .underline children | .strikethrough children
  | .marked children | .spoiler children | .quote children | .heading _ children =>
      RichDollarless children

def RichDollarless : List RichSpan → Prop
  | [] => True
  | span :: spans => span.Dollarless ∧ RichDollarless spans
end

mutual
/-- No text of the span breaks the line. -/
def RichSpan.OneLine : RichSpan → Prop
  | .plain text => '\n' ∉ text.toList
  | .math expr _ => '\n' ∉ expr.toList
  | .bold children | .italic children | .underline children | .strikethrough children
  | .marked children | .spoiler children | .quote children | .heading _ children =>
      RichOneLine children

def RichOneLine : List RichSpan → Prop
  | [] => True
  | span :: spans => span.OneLine ∧ RichOneLine spans
end

def RichCell.OneLine : RichCell → Prop
  | .span one => RichOneLine [one]
  | .spans many => RichOneLine many

def lineCount (text : String) : Nat := if text = "" then 0 else text.toList.count '\n' + 1

/-- One line for each row, and two for a header. -/
def tableHeight (header : Option (List RichCell)) (rows : List (List RichCell)) : Nat :=
  (if (header.getD []).isEmpty then 0 else 2) + rows.length

/-! ## The atoms of a tree -/

/-- Dynamic text: escaped where it is special, bare elsewhere. -/
def plainAtoms (text : String) : List (Atom Char) :=
  text.toList.map fun c => if c ∈ richEscapes then .escaped c else .bare c

def exprAtoms : List Char → List (Atom Char)
  | [] => []
  | ['\\'] => [.bare '\\']
  | '\\' :: d :: rest => .escaped d :: exprAtoms rest
  | c :: rest => .markup c :: exprAtoms rest

def paragraphAtoms (inner : List (Atom Char)) : List (Atom Char) :=
  inner.flatMap fun a => if atomChar a = '\n' then a :: markupAtoms ">\n> " else [a]

mutual
def RichSpan.atoms : RichSpan → List (Atom Char)
  | .plain text => plainAtoms text
  | .bold children => markupAtoms "**" ++ richAtoms children ++ markupAtoms "**"
  | .italic children => markupAtoms "*" ++ richAtoms children ++ markupAtoms "*"
  | .underline children => markupAtoms "__" ++ richAtoms children ++ markupAtoms "__"
  | .strikethrough children => markupAtoms "~~" ++ richAtoms children ++ markupAtoms "~~"
  | .marked children => markupAtoms "==" ++ richAtoms children ++ markupAtoms "=="
  | .spoiler children => markupAtoms "||" ++ richAtoms children ++ markupAtoms "||"
  | .quote children => markupAtoms "> " ++ paragraphAtoms (richAtoms children)
  | .heading level children =>
      markupAtoms (headingMarks level) ++ markupAtoms " " ++ richAtoms children
  | .math expr block =>
      markupAtoms (mathMark block) ++ (exprAtoms expr.toList ++ markupAtoms (mathMark block))

def richAtoms : List RichSpan → List (Atom Char)
  | [] => []
  | span :: spans => span.atoms ++ richAtoms spans
end

/-- Rich atoms: every bare backslash stands before a dollar sign of the markup. -/
def RichSettled : List (Atom Char) → Prop
  | [] => True
  | .escaped _ :: atoms => RichSettled atoms
  | .bare c :: atoms => (c = '\\' → atoms.head? = some (.markup '$')) ∧ RichSettled atoms
  | .markup c :: atoms => c ≠ '\\' ∧ RichSettled atoms

theorem rich_escapable (c : Char) : rich.escapable c = true := by
  by_cases h : c = '\\' <;> simp [Markup.escapable, rich, h]

theorem RichSettled.append {a b : List (Atom Char)} (ha : RichSettled a) (hb : RichSettled b) :
    RichSettled (a ++ b) := by
  induction a with
  | nil => exact hb
  | cons x a ih =>
    cases x with
    | escaped c => exact ih ha
    | markup c => exact ⟨ha.1, ih ha.2⟩
    | bare c =>
      refine ⟨fun hc => ?_, ih ha.2⟩
      have hhead := ha.1 hc
      cases a with
      | nil => cases hhead
      | cons y a => exact hhead

theorem RichSettled.written {atoms : List (Atom Char)} (h : RichSettled atoms) : rich.Written atoms := by
  induction atoms with
  | nil => trivial
  | cons x atoms ih =>
    cases x with
    | escaped c => exact ⟨rich_escapable c, ih h⟩
    | markup c => exact ⟨h.1, ih h.2⟩
    | bare c =>
      refine ⟨fun hc => ?_, ih h.2⟩
      rw [h.1 hc]
      simp

theorem RichSettled.inert_iff {atoms : List (Atom Char)} (h : RichSettled atoms) :
    rich.Inert () atoms ↔ ∀ c, .bare c ∈ atoms → c ∉ richMarkup ∧ c ≠ '\\' := by
  induction atoms with
  | nil => simp [Markup.Inert]
  | cons x atoms ih =>
    cases x with
    | escaped c => simpa [Markup.Inert] using ih h
    | markup c => simpa [Markup.Inert] using ih h.2
    | bare c =>
      have hactive : rich.active () c = false ↔ c ∉ richMarkup := decide_eq_false_iff_not
      have hswallowed : (c = rich.escape → ¬ rich.Swallowed () atoms) ↔ c ≠ '\\' := by
        refine ⟨fun hkept hc => hkept hc ?_, fun hne hc => absurd hc hne⟩
        obtain ⟨rest, rfl⟩ : ∃ rest, atoms = .markup '$' :: rest :=
          ⟨atoms.tail, List.eq_cons_of_mem_head? (h.1 hc)⟩
        exact rich_escapable '$'
      have hrest := ih h.2
      show rich.active () c = false ∧ (c = rich.escape → ¬ rich.Swallowed () atoms) ∧
        rich.Inert () atoms ↔ _
      rw [hactive, hswallowed, hrest]
      simp only [List.mem_cons, Atom.bare.injEq, forall_eq_or_imp, and_assoc]

theorem settled_plainAtoms (text : String) : RichSettled (plainAtoms text) := by
  unfold plainAtoms
  induction text.toList with
  | nil => trivial
  | cons c rest ih =>
    rw [List.map_cons]
    split
    · exact ih
    · rename_i hc
      refine ⟨fun heq => absurd ?_ hc, ih⟩
      rw [heq]
      decide

theorem settled_markupAtoms {text : String} (h : '\\' ∉ text.toList) :
    RichSettled (markupAtoms text) := by
  unfold markupAtoms
  generalize text.toList = chars at h
  induction chars with
  | nil => trivial
  | cons c rest ih =>
    obtain ⟨hne, hrest⟩ := not_or.mp fun hor => h (List.mem_cons.mpr hor)
    exact ⟨fun heq => hne heq.symm, ih hrest⟩

theorem settled_exprAtoms (expr : List Char) {rest : List (Atom Char)} (hrest : RichSettled rest)
    (hhead : rest.head? = some (.markup '$')) : RichSettled (exprAtoms expr ++ rest) := by
  fun_induction exprAtoms expr with
  | case1 => exact hrest
  | case2 => exact ⟨fun _ => hhead, hrest⟩
  | case3 d expr ih => exact ih
  | case4 c expr hlone hpair ih =>
    refine ⟨fun hc => ?_, ih⟩
    cases expr with
    | nil => exact hlone hc rfl
    | cons d expr => exact hpair d expr hc rfl

theorem paragraphAtoms_cons (a : Atom Char) (inner : List (Atom Char)) :
    paragraphAtoms (a :: inner) =
      (if atomChar a = '\n' then a :: markupAtoms ">\n> " else [a]) ++ paragraphAtoms inner :=
  List.flatMap_cons

theorem RichSettled.paragraphAtoms {inner : List (Atom Char)} (h : RichSettled inner) :
    RichSettled (paragraphAtoms inner) := by
  have hmarks : RichSettled (markupAtoms ">\n> ") := settled_markupAtoms (by decide)
  induction inner with
  | nil => trivial
  | cons a inner ih =>
    rw [paragraphAtoms_cons]
    cases a with
    | escaped c =>
      split
      · exact RichSettled.append (a := .escaped c :: markupAtoms ">\n> ") hmarks (ih h)
      · exact ih h
    | markup c =>
      split
      · exact RichSettled.append (a := .markup c :: markupAtoms ">\n> ") ⟨h.1, hmarks⟩ (ih h.2)
      · exact ⟨h.1, ih h.2⟩
    | bare c =>
      split
      · rename_i hc
        have hne : c ≠ '\\' := by
          rintro rfl
          exact absurd hc (by decide)
        exact RichSettled.append (a := .bare c :: markupAtoms ">\n> ")
          ⟨fun heq => absurd heq hne, hmarks⟩ (ih h.2)
      · refine ⟨fun hc => ?_, ih h.2⟩
        have hhead := h.1 hc
        obtain ⟨rest, rfl⟩ : ∃ rest, inner = .markup '$' :: rest :=
          ⟨inner.tail, List.eq_cons_of_mem_head? hhead⟩
        rfl

theorem mathMark_plain (block : Bool) : '\\' ∉ (mathMark block).toList := by
  cases block <;> decide

theorem head?_mathMark (block : Bool) :
    (markupAtoms (mathMark block)).head? = some (.markup '$') := by
  cases block <;> rfl

theorem headingMarks_plain (level : Int) : '\\' ∉ (headingMarks level).toList := by
  simp [headingMarks, List.mem_replicate]

mutual
theorem RichSpan.settled_atoms : ∀ span : RichSpan, RichSettled span.atoms
  | .plain text => settled_plainAtoms text
  | .math expr block =>
      (settled_markupAtoms (mathMark_plain block)).append
        (settled_exprAtoms _ (settled_markupAtoms (mathMark_plain block)) (head?_mathMark block))
  | .heading level children =>
      ((settled_markupAtoms (headingMarks_plain level)).append
        (settled_markupAtoms (by decide))).append (settled_richAtoms children)
  | .quote children =>
      (settled_markupAtoms (by decide)).append (settled_richAtoms children).paragraphAtoms
  | .bold children | .italic children | .underline children | .strikethrough children
  | .marked children | .spoiler children =>
      ((settled_markupAtoms (by decide)).append (settled_richAtoms children)).append
        (settled_markupAtoms (by decide))

theorem settled_richAtoms : ∀ spans : List RichSpan, RichSettled (richAtoms spans)
  | [] => trivial
  | span :: spans => span.settled_atoms.append (settled_richAtoms spans)
end

/-! ## Rendering is writing the atoms -/

theorem rich_text_markupAtoms (text : String) : rich.text (markupAtoms text) = text.toList := by
  simp [Markup.text, markupAtoms, List.flatMap_map, Markup.atomText]

theorem rich_text_plainAtoms (text : String) :
    rich.text (plainAtoms text) = (escapeRich text).toList := by
  unfold Markup.text plainAtoms escapeRich
  rw [List.flatMap_map, String.toList_ofList]
  congr 1
  funext c
  split <;> rfl

theorem rich_text_exprAtoms (expr : List Char) : rich.text (exprAtoms expr) = expr := by
  fun_induction exprAtoms expr with
  | case1 => rfl
  | case2 => rfl
  | case3 d expr ih => exact congrArg (fun rest => '\\' :: d :: rest) ih
  | case4 c expr hlone hpair ih => exact congrArg (fun rest => c :: rest) ih

theorem rich_text_paragraphAtoms {text : String} {inner : List (Atom Char)}
    (h : rich.text inner = text.toList) :
    rich.text (paragraphAtoms inner) = (quoteParagraphs text).toList := by
  unfold quoteParagraphs
  rw [String.toList_ofList, ← h]
  unfold Markup.text paragraphAtoms
  rw [List.flatMap_assoc, List.flatMap_assoc]
  congr 1
  funext a
  have hescape : rich.escape ≠ '\n' := by decide
  by_cases hc : atomChar a = '\n'
  · rw [if_pos hc]
    cases a <;> cases hc <;> decide
  · rw [if_neg hc, List.flatMap_singleton]
    cases a with
    | escaped c =>
      rw [Markup.atomText, List.flatMap_cons, List.flatMap_singleton, if_neg hescape]
      exact congrArg (List.cons _) (if_neg hc).symm
    | bare c | markup c =>
      rw [Markup.atomText, List.flatMap_singleton]
      exact (if_neg hc).symm

mutual
theorem RichSpan.text_atoms : ∀ span : RichSpan, rich.text span.atoms = span.render.toList
  | .plain text => rich_text_plainAtoms text
  | .math expr block => by
    simp [RichSpan.atoms, RichSpan.render, Markup.text_append, rich_text_markupAtoms,
      rich_text_exprAtoms]
  | .heading level children => by
    simp [RichSpan.atoms, RichSpan.render, Markup.text_append, rich_text_markupAtoms,
      text_richAtoms children]
  | .quote children => by
    simp [RichSpan.atoms, RichSpan.render, Markup.text_append, rich_text_markupAtoms,
      rich_text_paragraphAtoms (text_richAtoms children)]
  | .bold children | .italic children | .underline children | .strikethrough children
  | .marked children | .spoiler children => by
    simp [RichSpan.atoms, RichSpan.render, Markup.text_append, rich_text_markupAtoms,
      text_richAtoms children]

theorem text_richAtoms : ∀ spans : List RichSpan,
    rich.text (richAtoms spans) = (renderRich spans).toList
  | [] => rfl
  | span :: spans => by
    simp [richAtoms, renderRich, Markup.text_append, span.text_atoms, text_richAtoms spans]
end

/-! ## The intended reading is the meaning of the tree -/

def richToken : Atom Char → Token Char
  | .escaped c => .literal c
  | .bare c => .literal c
  | .markup c => rich.token () c

theorem intended_rich (atoms : List (Atom Char)) :
    rich.intended () atoms = atoms.map richToken := by
  induction atoms with
  | nil => rfl
  | cons a atoms ih => cases a <;> exact congrArg _ ih

theorem tokens_markupAtoms (text : String) : (markupAtoms text).map richToken = marks text := by
  simp [markupAtoms, marks, richToken, Function.comp_def]

theorem tokens_plainAtoms (text : String) :
    (plainAtoms text).map richToken = text.toList.map .literal := by
  unfold plainAtoms
  rw [List.map_map]
  refine List.map_congr_left fun c _ => ?_
  show richToken (if c ∈ richEscapes then .escaped c else .bare c) = .literal c
  split <;> rfl

theorem tokens_exprAtoms (expr : List Char) : (exprAtoms expr).map richToken = exprTokens expr := by
  fun_induction exprAtoms expr with
  | case1 => rfl
  | case2 => rfl
  | case3 d expr ih => exact congrArg (fun rest => .literal d :: rest) ih
  | case4 c expr hlone hpair ih =>
    rw [exprTokens.eq_4 _ _ hlone hpair]
    exact congrArg (fun rest => rich.token () c :: rest) ih

theorem rich_token_break : rich.token () '\n' = .literal '\n' := by decide

theorem richToken_break_iff (a : Atom Char) : richToken a = .literal '\n' ↔ atomChar a = '\n' := by
  cases a with
  | escaped c => simp [richToken, atomChar]
  | bare c => simp [richToken, atomChar]
  | markup c =>
    refine ⟨fun h => ?_, fun h => ?_⟩
    · change rich.token () c = _ at h
      unfold Markup.token at h
      split at h
      · cases h
      · exact Token.literal.inj h
    · obtain rfl : c = '\n' := h
      exact rich_token_break

theorem tokens_paragraphAtoms (inner : List (Atom Char)) :
    (paragraphAtoms inner).map richToken = quoteTokens (inner.map richToken) := by
  unfold paragraphAtoms quoteTokens
  rw [List.map_flatMap, List.flatMap_map]
  congr 1
  funext a
  by_cases hbreak : atomChar a = '\n'
  · have htoken := (richToken_break_iff a).mpr hbreak
    rw [if_pos hbreak, if_pos htoken, List.map_cons, tokens_markupAtoms, htoken,
      ← rich_token_break]
    rfl
  · rw [if_neg hbreak, if_neg (fun htoken => hbreak ((richToken_break_iff a).mp htoken))]
    rfl

mutual
theorem RichSpan.tokens_atoms : ∀ span : RichSpan, span.atoms.map richToken = span.tokens
  | .plain text => tokens_plainAtoms text
  | .math expr block => by
    simp [RichSpan.atoms, RichSpan.tokens, tokens_markupAtoms, tokens_exprAtoms]
  | .heading level children => by
    simp [RichSpan.atoms, RichSpan.tokens, tokens_markupAtoms, tokens_richAtoms children]
  | .quote children => by
    simp [RichSpan.atoms, RichSpan.tokens, tokens_markupAtoms, tokens_paragraphAtoms,
      tokens_richAtoms children]
  | .bold children | .italic children | .underline children | .strikethrough children
  | .marked children | .spoiler children => by
    simp [RichSpan.atoms, RichSpan.tokens, tokens_markupAtoms, tokens_richAtoms children]

theorem tokens_richAtoms : ∀ spans : List RichSpan,
    (richAtoms spans).map richToken = richTokens spans
  | [] => rfl
  | span :: spans => by
    simp [richAtoms, richTokens, span.tokens_atoms, tokens_richAtoms spans]
end

/-! ## The bare characters of a tree -/

/-- A bare character that the scan takes as a literal. -/
def Harmless (atoms : List (Atom Char)) : Prop :=
  ∀ c, .bare c ∈ atoms → c ∉ richMarkup ∧ c ≠ '\\'

theorem harmless_append {a b : List (Atom Char)} :
    Harmless (a ++ b) ↔ Harmless a ∧ Harmless b := by
  simp only [Harmless, List.mem_append, or_imp, forall_and]
  exact and_and_and_comm

theorem harmless_markupAtoms (text : String) : Harmless (markupAtoms text) :=
  fun _ hc => absurd hc bare_markupAtoms

theorem unescaped_markup {c : Char} (h : c ∉ richEscapes) :
    c ∉ richMarkup ∧ c ≠ '\\' ↔ c ≠ '$' := by
  have hall : richMarkup.all (fun d => decide (d = '$' ∨ d ∈ richEscapes)) = true := by decide
  have hmarkup : ∀ d ∈ richMarkup, d = '$' ∨ d ∈ richEscapes := fun d hd =>
    of_decide_eq_true (List.all_eq_true.mp hall d hd)
  refine ⟨fun hno heq => hno.1 (heq ▸ by decide), fun hne => ⟨fun hc => ?_, fun heq => ?_⟩⟩
  · exact (hmarkup c hc).elim hne h
  · exact h (heq ▸ by decide)

theorem harmless_plainAtoms (text : String) :
    Harmless (plainAtoms text) ↔ '$' ∉ text.toList := by
  have hbare : ∀ c, .bare c ∈ plainAtoms text ↔ c ∈ text.toList ∧ c ∉ richEscapes := by
    intro c
    unfold plainAtoms
    refine ⟨fun h => ?_, fun h => List.mem_map.mpr ⟨c, h.1, if_neg h.2⟩⟩
    obtain ⟨d, hd, heq⟩ := List.mem_map.mp h
    split at heq
    · cases heq
    · rename_i hno
      obtain rfl := Atom.bare.inj heq
      exact ⟨hd, hno⟩
  refine ⟨fun h hdollar => ?_, fun h c hc => ?_⟩
  · exact (h '$' ((hbare '$').mpr ⟨hdollar, by decide⟩)).1 (by decide)
  · obtain ⟨hmem, hno⟩ := (hbare c).mp hc
    refine (unescaped_markup hno).mpr ?_
    rintro rfl
    exact h hmem

theorem harmless_exprAtoms (expr : List Char) :
    Harmless (exprAtoms expr) ↔ openEscape expr = false := by
  fun_induction exprAtoms expr with
  | case1 => simp [Harmless, openEscape]
  | case2 => simp [Harmless, openEscape]
  | case3 d expr ih =>
    rw [← List.singleton_append, harmless_append, ih]
    simp [Harmless, openEscape]
  | case4 c expr hlone hpair ih =>
    rw [← List.singleton_append, harmless_append, ih, openEscape.eq_4 _ _ hlone hpair]
    simp [Harmless]

theorem harmless_paragraphAtoms (inner : List (Atom Char)) :
    Harmless (paragraphAtoms inner) ↔ Harmless inner := by
  induction inner with
  | nil => rfl
  | cons a inner ih =>
    rw [paragraphAtoms_cons, harmless_append, ih, ← List.singleton_append (l := inner),
      harmless_append]
    refine and_congr_left fun _ => ?_
    split
    · rw [← List.singleton_append, harmless_append]
      exact and_iff_left (harmless_markupAtoms _)
    · rfl

mutual
theorem RichSpan.harmless_iff : ∀ span : RichSpan, Harmless span.atoms ↔ span.Dollarless
  | .plain text => harmless_plainAtoms text
  | .math expr block => by
    simp [RichSpan.atoms, RichSpan.Dollarless, harmless_append, harmless_markupAtoms,
      harmless_exprAtoms]
  | .heading level children => by
    simp [RichSpan.atoms, RichSpan.Dollarless, harmless_append, harmless_markupAtoms,
      harmless_rich_iff children]
  | .quote children => by
    simp [RichSpan.atoms, RichSpan.Dollarless, harmless_append, harmless_markupAtoms,
      harmless_paragraphAtoms, harmless_rich_iff children]
  | .bold children | .italic children | .underline children | .strikethrough children
  | .marked children | .spoiler children => by
    simp [RichSpan.atoms, RichSpan.Dollarless, harmless_append, harmless_markupAtoms,
      harmless_rich_iff children]

theorem harmless_rich_iff : ∀ spans : List RichSpan,
    Harmless (richAtoms spans) ↔ RichDollarless spans
  | [] => by simp [richAtoms, RichDollarless, Harmless]
  | span :: spans => by
    simp [richAtoms, RichDollarless, harmless_append, span.harmless_iff, harmless_rich_iff spans]
end

/-- A rendered tree is read as it was meant exactly when no plain text has a
dollar sign and no formula ends in an open backslash. -/
theorem readRich_renderRich_iff (spans : List RichSpan) :
    readRich (renderRich spans) = richTokens spans ↔ RichDollarless spans := by
  have hsettled := settled_richAtoms spans
  calc readRich (renderRich spans) = richTokens spans
      ↔ rich.read () (rich.text (richAtoms spans)) = rich.intended () (richAtoms spans) := by
        rw [text_richAtoms, intended_rich, tokens_richAtoms]
        rfl
    _ ↔ rich.Inert () (richAtoms spans) := rich.read_eq_intended_iff hsettled.written ()
    _ ↔ Harmless (richAtoms spans) := hsettled.inert_iff
    _ ↔ RichDollarless spans := harmless_rich_iff spans

/-! ## Tables -/

theorem break_mem_escapeRich (text : String) :
    '\n' ∈ (escapeRich text).toList ↔ '\n' ∈ text.toList := by
  unfold escapeRich
  rw [String.toList_ofList, List.mem_flatMap]
  refine ⟨fun ⟨c, hc, hmem⟩ => ?_, fun h => ⟨'\n', h, by decide⟩⟩
  split at hmem
  · rename_i hescaped
    obtain rfl : '\n' = c := by simpa using hmem
    exact hc
  · obtain rfl := List.mem_singleton.mp hmem
    exact hc

theorem break_mem_quoteParagraphs (text : String) :
    '\n' ∈ (quoteParagraphs text).toList ↔ '\n' ∈ text.toList := by
  unfold quoteParagraphs
  rw [String.toList_ofList, List.mem_flatMap]
  refine ⟨fun ⟨c, hc, hmem⟩ => ?_, fun h => ⟨'\n', h, by decide⟩⟩
  split at hmem
  · rename_i hbreak
    exact hbreak ▸ hc
  · obtain rfl := List.mem_singleton.mp hmem
    exact hc

theorem break_notMem_mathMark (block : Bool) : '\n' ∉ (mathMark block).toList := by
  cases block <;> decide

theorem break_notMem_headingMarks (level : Int) : '\n' ∉ (headingMarks level).toList := by
  simp [headingMarks, List.mem_replicate]

mutual
theorem RichSpan.break_notMem_iff : ∀ span : RichSpan, '\n' ∉ span.render.toList ↔ span.OneLine
  | .plain text => not_congr (break_mem_escapeRich text)
  | .math expr block => by
    simp [RichSpan.render, RichSpan.OneLine, break_notMem_mathMark]
  | .heading level children => by
    simp [RichSpan.render, RichSpan.OneLine, break_notMem_headingMarks,
      break_notMem_rich_iff children]
  | .quote children => by
    simp [RichSpan.render, RichSpan.OneLine, break_mem_quoteParagraphs,
      break_notMem_rich_iff children]
  | .bold children | .italic children | .underline children | .strikethrough children
  | .marked children | .spoiler children => by
    simp [RichSpan.render, RichSpan.OneLine, break_notMem_rich_iff children]

theorem break_notMem_rich_iff : ∀ spans : List RichSpan,
    '\n' ∉ (renderRich spans).toList ↔ RichOneLine spans
  | [] => by simp [renderRich, RichOneLine]
  | span :: spans => by
    simp [renderRich, RichOneLine, span.break_notMem_iff, break_notMem_rich_iff spans]
end

theorem renderCell_break_notMem_iff (cell : RichCell) :
    '\n' ∉ (renderCell cell).toList ↔ cell.OneLine := by
  cases cell with
  | span one => exact break_notMem_rich_iff [one]
  | spans many => exact break_notMem_rich_iff many

theorem count_intercalate (c : Char) (sep : List Char) (parts : List (List Char)) :
    (sep.intercalate parts).count c =
      (parts.map fun part => part.count c).sum + (parts.length - 1) * sep.count c := by
  induction parts with
  | nil => simp
  | cons first rest ih =>
    cases rest with
    | nil => simp
    | cons second rest =>
      rw [List.intercalate_cons_cons, List.count_append, List.count_append, ih]
      simp only [List.map_cons, List.sum_cons, List.length_cons]
      have hlength : rest.length + 1 + 1 - 1 = rest.length + 1 - 1 + 1 := by omega
      rw [hlength, Nat.succ_mul]
      omega

theorem count_tableLine (cells : List String) :
    (tableLine cells).toList.count '\n' = (cells.map fun cell => cell.toList.count '\n').sum := by
  have hedges : "| ".toList.count '\n' = 0 ∧ " | ".toList.count '\n' = 0 ∧
      " |".toList.count '\n' = 0 := by decide
  unfold tableLine
  rw [String.toList_append, String.toList_append, List.count_append, List.count_append,
    String.toList_intercalate, count_intercalate, hedges.1, hedges.2.1, hedges.2.2]
  simp [Function.comp_def]

theorem tableLine_oneLine_iff (row : List RichCell) :
    (tableLine (row.map renderCell)).toList.count '\n' = 0 ↔ ∀ cell ∈ row, cell.OneLine := by
  rw [count_tableLine, List.sum_eq_zero_iff_forall_eq_nat]
  simp only [List.map_map, List.mem_map, Function.comp_apply, forall_exists_index, and_imp,
    forall_apply_eq_imp_iff₂, List.count_eq_zero, renderCell_break_notMem_iff]

def tableCells (header : Option (List RichCell)) (rows : List (List RichCell)) : List RichCell :=
  header.getD [] ++ rows.flatten

theorem alignment_oneLine (cells : List RichCell) :
    (tableLine (cells.map fun _ => "---")).toList.count '\n' = 0 := by
  simp [count_tableLine]

theorem length_tableLines (header : Option (List RichCell)) (rows : List (List RichCell)) :
    (tableLines header rows).length = tableHeight header rows := by
  unfold tableLines tableHeight
  split
  · simp
  · simp only [List.length_append, List.length_cons, List.length_nil, List.length_map]

theorem tableLines_oneLine_iff (header : Option (List RichCell)) (rows : List (List RichCell)) :
    ((tableLines header rows).map fun line => line.toList.count '\n').sum = 0 ↔
      ∀ cell ∈ tableCells header rows, cell.OneLine := by
  have hrows : (∀ n ∈ (rows.map fun row => tableLine (row.map renderCell)).map
      (fun line => line.toList.count '\n'), n = 0) ↔ ∀ cell ∈ rows.flatten, cell.OneLine := by
    simp only [List.map_map, List.mem_map, Function.comp_apply, forall_exists_index, and_imp,
      forall_apply_eq_imp_iff₂, tableLine_oneLine_iff, List.mem_flatten]
    exact ⟨fun h cell row hrow hcell => h row hrow cell hcell,
      fun h row hrow cell hcell => h cell row hrow hcell⟩
  rw [List.sum_eq_zero_iff_forall_eq_nat, tableLines, tableCells]
  simp only [List.map_append, List.mem_append, or_imp, forall_and]
  refine and_congr ?_ hrows
  generalize header.getD [] = cells
  split
  · rename_i hempty
    simp [List.isEmpty_iff.mp hempty]
  · rw [List.map_cons, List.map_singleton, List.forall_mem_cons, List.forall_mem_singleton]
    exact (and_iff_left (alignment_oneLine cells)).trans (tableLine_oneLine_iff cells)

theorem tableLine_ne_empty (cells : List String) : tableLine cells ≠ "" := by
  intro h
  have hnil : (tableLine cells).toList = [] := by rw [h]; rfl
  simp [tableLine] at hnil

/-- **A table has one line for each row** exactly when no text in it breaks the line. -/
theorem lineCount_richTable_iff (header : Option (List RichCell)) (rows : List (List RichCell)) :
    lineCount (richTable header rows) = tableHeight header rows ↔
      ∀ cell ∈ tableCells header rows, cell.OneLine := by
  rw [← tableLines_oneLine_iff, ← length_tableLines]
  have hcount : (richTable header rows).toList.count '\n' =
      ((tableLines header rows).map fun line => line.toList.count '\n').sum +
        ((tableLines header rows).length - 1) := by
    have hbreak : "\n".toList.count '\n' = 1 := by decide
    unfold richTable
    rw [String.toList_intercalate, count_intercalate, hbreak]
    simp [Function.comp_def]
  have hline : ∀ line ∈ tableLines header rows, line ≠ "" := by
    intro line hline
    obtain ⟨cells, rfl⟩ : ∃ cells, line = tableLine cells := by
      unfold tableLines at hline
      rcases List.mem_append.mp hline with hhead | hrow
      · split at hhead
        · cases hhead
        · simp only [List.mem_cons, List.not_mem_nil, or_false] at hhead
          exact hhead.elim (fun h => ⟨_, h⟩) (fun h => ⟨_, h⟩)
      · obtain ⟨row, -, rfl⟩ := List.mem_map.mp hrow
        exact ⟨_, rfl⟩
    exact tableLine_ne_empty cells
  unfold lineCount
  rw [hcount]
  cases hlines : tableLines header rows with
  | nil => simp [richTable, hlines]
  | cons first rest =>
    have hne : richTable header rows ≠ "" := by
      intro hempty
      have hnil : (richTable header rows).toList = [] := by rw [hempty]; rfl
      have hfirst : first.toList = [] := by
        unfold richTable at hnil
        rw [hlines, String.toList_intercalate] at hnil
        cases rest with
        | nil => simpa using hnil
        | cons second rest => simp [List.intercalate_cons_cons] at hnil
      exact hline first (hlines ▸ List.mem_cons_self ..) (String.toList_eq_nil_iff.mp hfirst)
    rw [if_neg hne]
    simp only [List.length_cons]
    omega

/-- **Rich rendering.**  A rendered tree is read as it was meant exactly when no
plain text has a dollar sign and no formula ends in an open backslash; a table has
one line for each row, and the alignment line under a header, exactly when no text
in it breaks the line. -/
theorem rich_rendering_iff (spans : List RichSpan) (header : Option (List RichCell))
    (rows : List (List RichCell)) :
    (readRich (renderRich spans) = richTokens spans ↔ RichDollarless spans) ∧
      (lineCount (richTable header rows) = tableHeight header rows ↔
        ∀ cell ∈ tableCells header rows, cell.OneLine) :=
  ⟨readRich_renderRich_iff spans, lineCount_richTable_iff header rows⟩

/-- Two prices open and close a formula, and a cell of two lines is two lines of
the table. -/
theorem prices_are_a_formula :
    readRich (renderRich [.plain "$5 or $6"]) ≠ richTokens [.plain "$5 or $6"] ∧
      lineCount (richTable none [[.span (.plain "a\nb")]]) = 2 ∧
        tableHeight none [[.span (.plain "a\nb")]] = 1 := by
  decide

end HamZaboon
