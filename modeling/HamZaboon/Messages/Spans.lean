import HamZaboon.Cards.Text
import HamZaboon.Library.Escaping
import Mathlib.Data.List.Chain

/-! # Span trees in MarkdownV2

`services/send_pretty.py`: the span tree of a message and its MarkdownV2
renderer, and the reader on the other side, Telegram's MarkdownV2.  A rendered
message is read as it was meant exactly when its dynamic texts are inert
(`rendered_message_read_iff`), which fails for texts with a backslash in front of
a special character, another backslash, or markup.
-/

namespace HamZaboon
open Library

/-- A `Span`. -/
inductive Span
  | plain (text : String)
  | bold (children : List Span)
  | italic (children : List Span)
  | code (text : String)
  | spoiler (children : List Span)
  | tgSpoiler (children : List Span)
  | underline (children : List Span)
  | strikethrough (children : List Span)
  | marked (children : List Span)
  | link (url : String) (children : List Span)
  | quote (children : List Span)
  | newline
  | customEmoji (customEmojiId fallback : String)
  /-- A span for which the renderer raises a `TypeError`: headings, tables, lists,
  details, formulas and raw markup. -/
  | richOnly

/-- `inner.replace("\n", "\n> ")`. -/
def quoteLines (inner : String) : String :=
  String.ofList (inner.toList.flatMap fun c => if c = '\n' then ['\n', '>', ' '] else [c])

mutual
/-- One span of `_render_mdv2`; `none` for the `TypeError`. -/
def Span.renderMdv2 : Span → Option String
  | .plain text => some (escapeMdv2 text)
  | .bold children => (renderMdv2 children).map fun inner => "*" ++ inner ++ "*"
  | .italic children => (renderMdv2 children).map fun inner => "_" ++ inner ++ "_"
  | .code text => some ("`" ++ escapeMdv2Code text ++ "`")
  | .spoiler children => (renderMdv2 children).map fun inner => "||" ++ inner ++ "||"
  | .tgSpoiler children => (renderMdv2 children).map fun inner => "||" ++ inner ++ "||"
  | .underline children => (renderMdv2 children).map fun inner => "__" ++ inner ++ "__"
  | .strikethrough children => (renderMdv2 children).map fun inner => "~" ++ inner ++ "~"
  | .marked children => (renderMdv2 children).map fun inner => "*" ++ inner ++ "*"
  | .link url children =>
      (renderMdv2 children).map fun inner => "[" ++ inner ++ "](" ++ escapeMdv2 url ++ ")"
  | .quote children => (renderMdv2 children).map fun inner => "> " ++ quoteLines inner
  | .newline => some "\n"
  | .customEmoji customEmojiId fallback =>
      some ("![" ++ escapeMdv2 fallback ++ "](tg://emoji?id=" ++ customEmojiId ++ ")")
  | .richOnly => none

def renderMdv2 : List Span → Option String
  | [] => some ""
  | span :: spans => span.renderMdv2.bind fun a => (renderMdv2 spans).map fun b => a ++ b
end

/-- `Message.render`, for MarkdownV2. -/
def renderMessage (lines : List (List Span)) : Option String :=
  (lines.mapM renderMdv2).map fun rendered => "\n".intercalate rendered

/-! ## The reader -/

/-- The delimiter of code. -/
def backtick : Char := Char.ofNat 96

/-- Where a reader of MarkdownV2 stands. -/
inductive Mdv2Mode
  | text
  /-- Just after an unescaped `]`. -/
  | closed
  | code
  | url
  deriving DecidableEq, Repr

namespace Mdv2Mode

def active : Mdv2Mode → Char → Bool
  | .text, c => c ∈ mdv2Special
  | .closed, c => c ∈ mdv2Special
  | .code, c => c = backtick
  | .url, c => c = ')'

/-- The mode after a character of running text. -/
def nextText (c : Char) : Mdv2Mode :=
  if c = backtick then .code else if c = ']' then .closed else .text

/-- The mode after a character that no backslash stands before. -/
def next : Mdv2Mode → Char → Mdv2Mode
  | .text, c => nextText c
  | .closed, c => if c = '(' then .url else nextText c
  | .code, c => if c = backtick then .text else .code
  | .url, c => if c = ')' then .text else .url

/-- The mode after a literal character. -/
def after : Mdv2Mode → Mdv2Mode
  | .closed => .text
  | m => m

theorem nextText_inactive {c : Char} (h : active .text c = false) : nextText c = .text := by
  have hspecial : c ∉ mdv2Special := by simpa [active] using h
  unfold nextText
  rw [if_neg, if_neg]
  · rintro rfl
    exact hspecial (by decide)
  · rintro rfl
    exact hspecial (by decide)

theorem next_inactive (m : Mdv2Mode) (c : Char) (h : m.active c = false) : m.next c = m.after := by
  cases m with
  | text => exact nextText_inactive h
  | closed =>
    have hopen : c ≠ '(' := by
      rintro rfl
      exact absurd h (by decide)
    show (if c = '(' then Mdv2Mode.url else nextText c) = .text
    rw [if_neg hopen]
    exact nextText_inactive h
  | code =>
    have hno : c ≠ backtick := by simpa [active] using h
    show (if c = backtick then Mdv2Mode.text else .code) = .code
    rw [if_neg hno]
  | url =>
    have hno : c ≠ ')' := by simpa [active] using h
    show (if c = ')' then Mdv2Mode.text else .url) = .url
    rw [if_neg hno]

end Mdv2Mode

/-- Telegram's MarkdownV2, character by character: a backslash makes the next
special character or backslash literal. -/
def mdv2 : Markup Char Mdv2Mode where
  escape := '\\'
  special c := c ∈ mdv2Special
  active := Mdv2Mode.active
  next := Mdv2Mode.next
  after := Mdv2Mode.after
  active_escape m := by cases m <;> decide
  special_escape := by decide
  next_inactive := Mdv2Mode.next_inactive

/-- A text as a reader of MarkdownV2 takes it. -/
def readMdv2 (text : String) : List (Token Char) := mdv2.read .text text.toList

/-! ## The atoms of a message -/

/-- Dynamic text: escaped where it is special, bare elsewhere. -/
def textAtoms (text : String) : List (Atom Char) :=
  text.toList.map fun c => if c ∈ mdv2Special then .escaped c else .bare c

def codeAtoms (text : String) : List (Atom Char) :=
  text.toList.map fun c => if c ∈ "`\\".toList then .escaped c else .bare c

/-- Dynamic text that is not escaped at all. -/
def rawAtoms (text : String) : List (Atom Char) := text.toList.map .bare

def markupAtoms (text : String) : List (Atom Char) := text.toList.map .markup

def atomChar : Atom Char → Char
  | .escaped c => c
  | .bare c => c
  | .markup c => c

def quoteAtoms (inner : List (Atom Char)) : List (Atom Char) :=
  inner.flatMap fun a => if atomChar a = '\n' then [a, .markup '>', .markup ' '] else [a]

mutual
def Span.atoms : Span → List (Atom Char)
  | .plain text => textAtoms text
  | .bold children => markupAtoms "*" ++ spanAtoms children ++ markupAtoms "*"
  | .italic children => markupAtoms "_" ++ spanAtoms children ++ markupAtoms "_"
  | .code text => markupAtoms "`" ++ codeAtoms text ++ markupAtoms "`"
  | .spoiler children => markupAtoms "||" ++ spanAtoms children ++ markupAtoms "||"
  | .tgSpoiler children => markupAtoms "||" ++ spanAtoms children ++ markupAtoms "||"
  | .underline children => markupAtoms "__" ++ spanAtoms children ++ markupAtoms "__"
  | .strikethrough children => markupAtoms "~" ++ spanAtoms children ++ markupAtoms "~"
  | .marked children => markupAtoms "*" ++ spanAtoms children ++ markupAtoms "*"
  | .link url children =>
      markupAtoms "[" ++ spanAtoms children ++ markupAtoms "](" ++ textAtoms url ++ markupAtoms ")"
  | .quote children => markupAtoms "> " ++ quoteAtoms (spanAtoms children)
  | .newline => markupAtoms "\n"
  | .customEmoji customEmojiId fallback =>
      markupAtoms "![" ++ textAtoms fallback ++ markupAtoms "](tg://emoji?id=" ++
        rawAtoms customEmojiId ++ markupAtoms ")"
  | .richOnly => []

def spanAtoms : List Span → List (Atom Char)
  | [] => []
  | span :: spans => span.atoms ++ spanAtoms spans
end

def messageAtoms (lines : List (List Span)) : List (Atom Char) :=
  (markupAtoms "\n").intercalate (lines.map spanAtoms)

/-! ## Rendering is writing the atoms -/

theorem text_markupAtoms (s : String) : mdv2.text (markupAtoms s) = s.toList := by
  simp [Markup.text, markupAtoms, List.flatMap_map, Markup.atomText]

theorem text_rawAtoms (s : String) : mdv2.text (rawAtoms s) = s.toList := by
  simp [Markup.text, rawAtoms, List.flatMap_map, Markup.atomText]

theorem text_textAtoms (s : String) : mdv2.text (textAtoms s) = (escapeMdv2 s).toList := by
  unfold Markup.text textAtoms escapeMdv2
  rw [List.flatMap_map, String.toList_ofList]
  congr 1
  funext c
  split <;> rfl

theorem text_codeAtoms (s : String) : mdv2.text (codeAtoms s) = (escapeMdv2Code s).toList := by
  unfold Markup.text codeAtoms escapeMdv2Code
  refine Eq.trans ?_ String.toList_ofList.symm
  rw [List.flatMap_map]
  congr 1
  funext c
  split <;> rfl

theorem text_quoteAtoms {s : String} {inner : List (Atom Char)} (h : mdv2.text inner = s.toList) :
    mdv2.text (quoteAtoms inner) = (quoteLines s).toList := by
  unfold quoteLines
  rw [String.toList_ofList, ← h]
  unfold Markup.text quoteAtoms
  rw [List.flatMap_assoc, List.flatMap_assoc]
  congr 1
  funext a
  have hescape : mdv2.escape ≠ '\n' := by decide
  cases a with
  | escaped c => by_cases hc : c = '\n' <;> simp [atomChar, Markup.atomText, hc, hescape]
  | bare c => by_cases hc : c = '\n' <;> simp [atomChar, Markup.atomText, hc]
  | markup c => by_cases hc : c = '\n' <;> simp [atomChar, Markup.atomText, hc]

mutual
theorem Span.text_atoms : ∀ (span : Span) {s : String}, span.renderMdv2 = some s →
    mdv2.text span.atoms = s.toList
  | .plain text, s, h => by
    obtain rfl := Option.some.inj h
    exact text_textAtoms text
  | .code text, s, h => by
    obtain rfl := Option.some.inj h
    simp [Span.atoms, Markup.text_append, text_markupAtoms, text_codeAtoms]
  | .newline, s, h => by
    obtain rfl := Option.some.inj h
    exact text_markupAtoms _
  | .customEmoji customEmojiId fallback, s, h => by
    obtain rfl := Option.some.inj h
    simp [Span.atoms, Markup.text_append, text_markupAtoms, text_textAtoms, text_rawAtoms]
  | .quote children, s, h => by
    obtain ⟨inner, hinner, rfl⟩ := Option.map_eq_some_iff.mp h
    simp [Span.atoms, Markup.text_append, text_markupAtoms,
      text_quoteAtoms (text_spanAtoms children hinner)]
  | .link url children, s, h => by
    obtain ⟨inner, hinner, rfl⟩ := Option.map_eq_some_iff.mp h
    simp [Span.atoms, Markup.text_append, text_markupAtoms, text_textAtoms,
      text_spanAtoms children hinner]
  | .bold children, s, h | .italic children, s, h | .spoiler children, s, h
  | .tgSpoiler children, s, h | .underline children, s, h | .strikethrough children, s, h
  | .marked children, s, h => by
    obtain ⟨inner, hinner, rfl⟩ := Option.map_eq_some_iff.mp h
    simp [Span.atoms, Markup.text_append, text_markupAtoms, text_spanAtoms children hinner]

theorem text_spanAtoms : ∀ (spans : List Span) {s : String}, renderMdv2 spans = some s →
    mdv2.text (spanAtoms spans) = s.toList
  | [], s, h => by
    obtain rfl := Option.some.inj h
    rfl
  | span :: spans, s, h => by
    obtain ⟨a, ha, hrest⟩ := Option.bind_eq_some_iff.mp h
    obtain ⟨b, hb, rfl⟩ := Option.map_eq_some_iff.mp hrest
    simp [spanAtoms, Markup.text_append, span.text_atoms ha, text_spanAtoms spans hb]
end

theorem text_lines {lines : List (List Span)} {rendered : List String}
    (h : lines.mapM renderMdv2 = some rendered) :
    lines.map (fun spans => mdv2.text (spanAtoms spans)) = rendered.map String.toList := by
  induction lines generalizing rendered with
  | nil =>
    obtain rfl := Option.some.inj h
    rfl
  | cons spans lines ih =>
    rw [List.mapM_cons] at h
    obtain ⟨a, ha, hrest⟩ := Option.bind_eq_some_iff.mp h
    obtain ⟨b, hb, hab⟩ := Option.bind_eq_some_iff.mp hrest
    obtain rfl := Option.some.inj hab
    rw [List.map_cons, List.map_cons, ih hb, text_spanAtoms spans ha]

theorem text_intercalate (sep : List (Atom Char)) (pieces : List (List (Atom Char))) :
    mdv2.text (sep.intercalate pieces) = (mdv2.text sep).intercalate (pieces.map mdv2.text) := by
  induction pieces with
  | nil => rfl
  | cons first rest ih =>
    cases rest with
    | nil => simp
    | cons second rest =>
      rw [List.map_cons, List.map_cons, List.intercalate_cons_cons, List.intercalate_cons_cons,
        Markup.text_append, Markup.text_append, ih, List.map_cons]

theorem text_messageAtoms {lines : List (List Span)} {s : String}
    (h : renderMessage lines = some s) : mdv2.text (messageAtoms lines) = s.toList := by
  obtain ⟨rendered, hrendered, rfl⟩ := Option.map_eq_some_iff.mp h
  unfold messageAtoms
  rw [text_intercalate, List.map_map, text_markupAtoms, String.toList_intercalate]
  exact congrArg _ (text_lines hrendered)

/-! ## Messages are written as an escaping writes -/

theorem writtenAlone_nil : mdv2.WrittenAlone [] := ⟨trivial, by simp⟩

theorem writtenAlone_markupAtoms {s : String} (h : '\\' ∉ s.toList) :
    mdv2.WrittenAlone (markupAtoms s) := by
  unfold markupAtoms
  generalize s.toList = chars at h
  induction chars with
  | nil => exact writtenAlone_nil
  | cons c rest ih =>
    have hc : c ≠ mdv2.escape := by
      rintro rfl
      exact h (List.mem_cons_self ..)
    exact (mdv2.writtenAlone_markup hc).append _ (ih fun hmem => h (List.mem_cons_of_mem _ hmem))

theorem writtenAlone_textAtoms (s : String) : mdv2.WrittenAlone (textAtoms s) := by
  unfold textAtoms
  induction s.toList with
  | nil => exact writtenAlone_nil
  | cons c rest ih =>
    rw [List.map_cons]
    split
    · rename_i hc
      have hescape : c ≠ mdv2.escape := by
        rintro rfl
        exact absurd hc (by decide)
      refine ⟨⟨by simp [Markup.escapable, mdv2, hc], ih.1⟩, ?_⟩
      intro heq
      exact hescape (Atom.escaped.inj (Option.some.inj heq))
    · exact ⟨⟨fun _ => ih.2, ih.1⟩, by simp⟩

theorem writtenAlone_rawAtoms (s : String) : mdv2.WrittenAlone (rawAtoms s) := by
  unfold rawAtoms
  induction s.toList with
  | nil => exact writtenAlone_nil
  | cons c rest ih => exact ⟨⟨fun _ => ih.2, ih.1⟩, by simp⟩

theorem written_codeAtoms (s : String) : mdv2.Written (codeAtoms s) := by
  unfold codeAtoms
  induction s.toList with
  | nil => trivial
  | cons c rest ih =>
    rw [List.map_cons]
    split
    · rename_i hc
      have hc' : c = backtick ∨ c = '\\' := by simpa [backtick] using hc
      refine ⟨?_, ih⟩
      rcases hc' with rfl | rfl
      · decide
      · decide
    · rename_i hc
      refine ⟨fun heq => absurd ?_ hc, ih⟩
      rw [heq]
      decide

theorem writtenAlone_code (s : String) :
    mdv2.WrittenAlone (markupAtoms "`" ++ codeAtoms s ++ markupAtoms "`") := by
  have hopen : (markupAtoms "`" ++ codeAtoms s ++ markupAtoms "`").head? = some (.markup backtick) :=
    rfl
  refine ⟨mdv2.written_append ⟨by decide, written_codeAtoms s⟩ (writtenAlone_markupAtoms (by decide)),
    ?_⟩
  rw [hopen]
  simp

theorem quoteAtoms_cons (a : Atom Char) (inner : List (Atom Char)) :
    quoteAtoms (a :: inner) =
      (if atomChar a = '\n' then [a, .markup '>', .markup ' '] else [a]) ++ quoteAtoms inner :=
  List.flatMap_cons

theorem head?_quoteAtoms (inner : List (Atom Char)) : (quoteAtoms inner).head? = inner.head? := by
  cases inner with
  | nil => rfl
  | cons a inner =>
    rw [quoteAtoms_cons]
    split <;> rfl

theorem written_quoteAtoms {inner : List (Atom Char)} (h : mdv2.Written inner) :
    mdv2.Written (quoteAtoms inner) := by
  induction inner with
  | nil => trivial
  | cons a inner ih =>
    -- the two characters after a line break
    have hbreak : mdv2.Written (.markup '>' :: .markup ' ' :: quoteAtoms inner) ↔
        mdv2.Written (quoteAtoms inner) :=
      ⟨fun hall => hall.2.2, fun hrest => ⟨by decide, by decide, hrest⟩⟩
    rw [quoteAtoms_cons]
    cases a with
    | escaped c =>
      split
      · exact ⟨h.1, hbreak.mpr (ih h.2)⟩
      · exact ⟨h.1, ih h.2⟩
    | markup c =>
      split
      · exact ⟨h.1, hbreak.mpr (ih h.2)⟩
      · exact ⟨h.1, ih h.2⟩
    | bare c =>
      split
      · exact ⟨fun _ => by simp, hbreak.mpr (ih h.2)⟩
      · refine ⟨fun hc => ?_, ih h.2⟩
        show (quoteAtoms inner).head? ≠ _
        rw [head?_quoteAtoms]
        exact h.1 hc

theorem writtenAlone_quoteAtoms {inner : List (Atom Char)} (h : mdv2.WrittenAlone inner) :
    mdv2.WrittenAlone (quoteAtoms inner) :=
  ⟨written_quoteAtoms h.1, (head?_quoteAtoms inner).symm ▸ h.2⟩

mutual
theorem Span.writtenAlone_atoms : ∀ span : Span, mdv2.WrittenAlone span.atoms
  | .plain text => writtenAlone_textAtoms text
  | .code text => writtenAlone_code text
  | .newline => writtenAlone_markupAtoms (by decide)
  | .richOnly => writtenAlone_nil
  | .customEmoji customEmojiId fallback =>
      ((((writtenAlone_markupAtoms (by decide)).append _ (writtenAlone_textAtoms fallback)).append _
        (writtenAlone_markupAtoms (by decide))).append _ (writtenAlone_rawAtoms customEmojiId)).append
          _ (writtenAlone_markupAtoms (by decide))
  | .quote children =>
      (writtenAlone_markupAtoms (by decide)).append _
        (writtenAlone_quoteAtoms (writtenAlone_spanAtoms children))
  | .link url children =>
      ((((writtenAlone_markupAtoms (by decide)).append _ (writtenAlone_spanAtoms children)).append _
        (writtenAlone_markupAtoms (by decide))).append _ (writtenAlone_textAtoms url)).append
          _ (writtenAlone_markupAtoms (by decide))
  | .bold children | .italic children | .spoiler children | .tgSpoiler children
  | .underline children | .strikethrough children | .marked children =>
      ((writtenAlone_markupAtoms (by decide)).append _ (writtenAlone_spanAtoms children)).append _
        (writtenAlone_markupAtoms (by decide))

theorem writtenAlone_spanAtoms : ∀ spans : List Span, mdv2.WrittenAlone (spanAtoms spans)
  | [] => writtenAlone_nil
  | span :: spans => span.writtenAlone_atoms.append _ (writtenAlone_spanAtoms spans)
end

theorem writtenAlone_messageAtoms (lines : List (List Span)) :
    mdv2.WrittenAlone (messageAtoms lines) := by
  unfold messageAtoms
  induction lines with
  | nil => exact writtenAlone_nil
  | cons spans lines ih =>
    cases lines with
    | nil => simpa using writtenAlone_spanAtoms spans
    | cons next lines =>
      rw [List.map_cons, List.map_cons, List.intercalate_cons_cons]
      exact ((writtenAlone_spanAtoms spans).append _ (writtenAlone_markupAtoms (by decide))).append _
        ih

/-! ## Reading back -/

/-- No backslash stands before a special character or another backslash. -/
def NoEscape (text : String) : Prop :=
  text.toList.IsChain fun a b => a = '\\' → mdv2.escapable b = false

instance (text : String) : Decidable (NoEscape text) :=
  inferInstanceAs (Decidable (text.toList.IsChain _))

theorem intended_textAtoms (text : String) :
    mdv2.intended .text (textAtoms text) = text.toList.map .literal := by
  unfold textAtoms
  induction text.toList with
  | nil => rfl
  | cons c rest ih =>
    rw [List.map_cons, List.map_cons]
    split
    · exact congrArg _ ih
    · exact congrArg _ ih

theorem swallowed_textAtoms (chars : List Char) :
    mdv2.Swallowed .text (chars.map fun c => if c ∈ mdv2Special then .escaped c else .bare c) ↔
      ∃ d ∈ chars.head?, mdv2.escapable d = true := by
  cases chars with
  | nil => simp [Markup.Swallowed]
  | cons d rest =>
    have hactive : d ∈ mdv2Special → mdv2.active .text d = true := fun hd => decide_eq_true hd
    have hescapable : d ∈ mdv2Special → mdv2.escapable d = true := by
      intro hd
      simp [Markup.escapable, mdv2, hd]
    by_cases hd : d ∈ mdv2Special
    · simp [Markup.Swallowed, hd, hactive hd, hescapable hd]
    · simp [Markup.Swallowed, hd]

theorem inert_textAtoms (text : String) : mdv2.Inert .text (textAtoms text) ↔ NoEscape text := by
  unfold textAtoms NoEscape
  induction text.toList with
  | nil => simp [Markup.Inert]
  | cons c rest ih =>
    have hafter : mdv2.after .text = .text := rfl
    rw [List.isChain_cons, List.map_cons]
    by_cases hc : c ∈ mdv2Special
    · have hne : c ≠ '\\' := by
        rintro rfl
        exact absurd hc (by decide)
      simp only [hc, if_true, Markup.Inert, hafter, ih]
      exact ⟨fun hrest => ⟨fun d _ heq => absurd heq hne, hrest⟩, fun hall => hall.2⟩
    · have hinactive : mdv2.active .text c = false := decide_eq_false hc
      simp only [hc, if_false, Markup.Inert, hafter, ih, hinactive, true_and,
        swallowed_textAtoms]
      refine and_congr_left fun _ => ⟨fun h d hd heq => ?_, fun h heq => ?_⟩
      · by_contra hno
        exact h heq ⟨d, hd, by simpa using hno⟩
      · rintro ⟨d, hd, hyes⟩
        rw [h d hd heq] at hyes
        cases hyes

/-! ## Messages without backslashes -/

/-- Atoms that a reader in mode `m` reads as they were meant, and leaves in `m`. -/
structure Plainly (m : Mdv2Mode) (atoms : List (Atom Char)) : Prop where
  inert : mdv2.Inert m atoms
  mode : mdv2.modeAfter m atoms = m
  bare : ∀ c, .bare c ∈ atoms → c ≠ mdv2.escape

theorem plainly_nil (m : Mdv2Mode) : Plainly m [] := ⟨trivial, rfl, by simp⟩

theorem Plainly.append {m : Mdv2Mode} {a b : List (Atom Char)} (ha : Plainly m a)
    (hb : Plainly m b) : Plainly m (a ++ b) where
  inert := mdv2.inert_append ha.bare ha.inert (ha.mode.symm ▸ hb.inert)
  mode := by rw [mdv2.modeAfter_append, ha.mode, hb.mode]
  bare c hc := (List.mem_append.mp hc).elim (ha.bare c) (hb.bare c)

theorem inert_markupAtoms (s : String) : ∀ m, mdv2.Inert m (markupAtoms s) := by
  unfold markupAtoms
  induction s.toList with
  | nil => exact fun _ => trivial
  | cons c rest ih => exact fun m => ih _

theorem bare_markupAtoms {s : String} {c : Char} : .bare c ∉ markupAtoms s := by
  simp [markupAtoms]

theorem plainly_markupAtoms {s : String} (h : mdv2.modeAfter .text (markupAtoms s) = .text) :
    Plainly .text (markupAtoms s) :=
  ⟨inert_markupAtoms s .text, h, fun _ hc => absurd hc bare_markupAtoms⟩

theorem Plainly.enclose {m : Mdv2Mode} {a : List (Atom Char)} (ha : Plainly m a)
    {opening closing : String} (hopen : mdv2.modeAfter .text (markupAtoms opening) = m)
    (hclose : mdv2.modeAfter m (markupAtoms closing) = .text) :
    Plainly .text (markupAtoms opening ++ a ++ markupAtoms closing) := by
  have hbare : ∀ c, .bare c ∈ markupAtoms opening ++ a → c ≠ mdv2.escape := fun c hc =>
    (List.mem_append.mp hc).elim (fun hmarkup => absurd hmarkup bare_markupAtoms) (ha.bare c)
  have hfirst : mdv2.modeAfter .text (markupAtoms opening ++ a) = m := by
    rw [mdv2.modeAfter_append, hopen, ha.mode]
  refine ⟨mdv2.inert_append hbare (mdv2.inert_append (fun _ hc => absurd hc bare_markupAtoms)
    (inert_markupAtoms opening _) (hopen.symm ▸ ha.inert)) (inert_markupAtoms closing _), ?_, ?_⟩
  · rw [mdv2.modeAfter_append, hfirst, hclose]
  · intro c hc
    rcases List.mem_append.mp hc with hc | hc
    · exact hbare c hc
    · exact absurd hc bare_markupAtoms

theorem plainly_map {m : Mdv2Mode} (hm : m ≠ .closed) {f : Char → Atom Char} (chars : List Char)
    (hf : ∀ c ∈ chars, f c = .escaped c ∨
      f c = .bare c ∧ mdv2.active m c = false ∧ c ≠ mdv2.escape) :
    Plainly m (chars.map f) := by
  have hafter : mdv2.after m = m := by cases m <;> first | rfl | exact absurd rfl hm
  induction chars with
  | nil => exact plainly_nil m
  | cons c rest ih =>
    have hrest := ih fun d hd => hf d (List.mem_cons_of_mem _ hd)
    refine Plainly.append (a := [f c]) ?_ hrest
    rcases hf c (List.mem_cons_self ..) with hc | ⟨hc, hactive, hne⟩
    · rw [hc]
      exact ⟨trivial, hafter, by simp⟩
    · rw [hc]
      refine ⟨⟨hactive, fun heq => absurd heq hne, trivial⟩, hafter, ?_⟩
      intro d hd
      obtain rfl := Atom.bare.inj (List.mem_singleton.mp hd)
      exact hne

theorem plainly_textAtoms {m : Mdv2Mode} (hm : m = .text ∨ m = .url) {s : String}
    (h : '\\' ∉ s.toList) : Plainly m (textAtoms s) := by
  refine plainly_map (by rintro rfl; simp at hm) _ (fun c hc => ?_)
  by_cases hspecial : c ∈ mdv2Special
  · exact Or.inl (if_pos hspecial)
  · have hne : c ≠ mdv2.escape := by
      rintro rfl
      exact h hc
    refine Or.inr ⟨if_neg hspecial, ?_, hne⟩
    rcases hm with rfl | rfl
    · exact decide_eq_false hspecial
    · refine decide_eq_false ?_
      rintro rfl
      exact hspecial (by decide)

theorem plainly_codeAtoms (s : String) : Plainly .code (codeAtoms s) := by
  refine plainly_map (by decide) _ (fun c hc => ?_)
  by_cases hspecial : c ∈ "`\\".toList
  · exact Or.inl (if_pos hspecial)
  · refine Or.inr ⟨if_neg hspecial, decide_eq_false ?_, ?_⟩
    · rintro rfl
      exact hspecial (by decide)
    · rintro rfl
      exact hspecial (by decide)

theorem plainly_rawAtoms {s : String} (h : '\\' ∉ s.toList) (hclose : ')' ∉ s.toList) :
    Plainly .url (rawAtoms s) := by
  refine plainly_map (by decide) _ (fun c hc => Or.inr ⟨rfl, decide_eq_false ?_, ?_⟩)
  · rintro rfl
    exact hclose hc
  · rintro rfl
    exact h hc

theorem quoteMark_mode (m : Mdv2Mode) :
    mdv2.next m '\n' = mdv2.after m ∧
      mdv2.next (mdv2.next (mdv2.after m) '>') ' ' = mdv2.after m := by
  cases m <;> decide

theorem inert_quoteAtoms {atoms : List (Atom Char)} (hbare : ∀ c, .bare c ∈ atoms → c ≠ mdv2.escape) :
    ∀ m : Mdv2Mode, mdv2.Inert m atoms →
      mdv2.Inert m (quoteAtoms atoms) ∧
        mdv2.modeAfter m (quoteAtoms atoms) = mdv2.modeAfter m atoms := by
  induction atoms with
  | nil => exact fun _ h => ⟨h, rfl⟩
  | cons a atoms ih =>
    intro m h
    have hrest := ih (fun c hc => hbare c (List.mem_cons_of_mem _ hc))
    obtain ⟨hbreak, hmarks⟩ := quoteMark_mode m
    rw [quoteAtoms_cons]
    cases a with
    | escaped c =>
      have htail := hrest (mdv2.after m) h
      split
      · simpa [Markup.Inert, Markup.modeAfter, hmarks] using htail
      · exact htail
    | markup c =>
      have htail := hrest (mdv2.next m c) h
      split
      · rename_i hc
        obtain rfl : c = '\n' := hc
        rw [hbreak] at htail
        simpa [Markup.Inert, Markup.modeAfter, hbreak, hmarks] using htail
      · exact htail
    | bare c =>
      obtain ⟨hactive, -, hinert⟩ := h
      have hne := hbare c (List.mem_cons_self ..)
      have htail := hrest (mdv2.after m) hinert
      split
      · simpa [Markup.Inert, Markup.modeAfter, hactive, hne, hmarks] using htail
      · exact ⟨⟨hactive, fun heq => absurd heq hne, htail.1⟩, htail.2⟩

theorem bare_quoteAtoms {atoms : List (Atom Char)} {c : Char} (h : .bare c ∈ quoteAtoms atoms) :
    .bare c ∈ atoms := by
  obtain ⟨a, ha, hc⟩ := List.mem_flatMap.mp h
  split at hc
  · simp only [List.mem_cons, reduceCtorEq, List.not_mem_nil, or_self, or_false] at hc
    exact hc ▸ ha
  · exact List.mem_singleton.mp hc ▸ ha

theorem Plainly.quoteAtoms {atoms : List (Atom Char)} (h : Plainly .text atoms) :
    Plainly .text (quoteAtoms atoms) := by
  obtain ⟨hinert, hmode⟩ := inert_quoteAtoms h.bare .text h.inert
  exact ⟨hinert, hmode.trans h.mode, fun c hc => h.bare c (bare_quoteAtoms hc)⟩

mutual
/-- No dynamic text of the span has a backslash, and no emoji id can end its url. -/
def Span.BackslashFree : Span → Prop
  | .plain text => '\\' ∉ text.toList
  | .code _ | .newline | .richOnly => True
  | .customEmoji customEmojiId fallback =>
      '\\' ∉ fallback.toList ∧ '\\' ∉ customEmojiId.toList ∧ ')' ∉ customEmojiId.toList
  | .link url children => '\\' ∉ url.toList ∧ BackslashFree children
  | .bold children | .italic children | .spoiler children | .tgSpoiler children
  | .underline children | .strikethrough children | .marked children | .quote children =>
      BackslashFree children

def BackslashFree : List Span → Prop
  | [] => True
  | span :: spans => span.BackslashFree ∧ BackslashFree spans
end

mutual
theorem Span.plainly_atoms : ∀ span : Span, span.BackslashFree → Plainly .text span.atoms
  | .plain _, h => plainly_textAtoms (Or.inl rfl) h
  | .code text, _ => (plainly_codeAtoms text).enclose (by decide) (by decide)
  | .newline, _ => plainly_markupAtoms (by decide)
  | .richOnly, _ => plainly_nil .text
  | .quote children, h =>
      (plainly_markupAtoms (by decide)).append (plainly_spanAtoms children h).quoteAtoms
  | .customEmoji customEmojiId fallback, h => by
    have hurl : Plainly .text (markupAtoms "](tg://emoji?id=" ++ rawAtoms customEmojiId ++
      markupAtoms ")") := (plainly_rawAtoms h.2.1 h.2.2).enclose (by decide) (by decide)
    have htext := (plainly_markupAtoms (s := "![") (by decide)).append
      (plainly_textAtoms (Or.inl rfl) h.1)
    simpa [Span.atoms] using htext.append hurl
  | .link url children, h => by
    have hurl : Plainly .text (markupAtoms "](" ++ textAtoms url ++ markupAtoms ")") :=
      (plainly_textAtoms (Or.inr rfl) h.1).enclose (by decide) (by decide)
    have htext := (plainly_markupAtoms (s := "[") (by decide)).append
      (plainly_spanAtoms children h.2)
    simpa [Span.atoms] using htext.append hurl
  | .bold children, h | .italic children, h | .spoiler children, h | .tgSpoiler children, h
  | .underline children, h | .strikethrough children, h | .marked children, h =>
      (plainly_spanAtoms children h).enclose (by decide) (by decide)

theorem plainly_spanAtoms : ∀ spans : List Span, BackslashFree spans →
    Plainly .text (spanAtoms spans)
  | [], _ => plainly_nil .text
  | span :: spans, h => (span.plainly_atoms h.1).append (plainly_spanAtoms spans h.2)
end

theorem plainly_messageAtoms (lines : List (List Span)) (h : ∀ spans ∈ lines, BackslashFree spans) :
    Plainly .text (messageAtoms lines) := by
  unfold messageAtoms
  induction lines with
  | nil => exact plainly_nil .text
  | cons spans lines ih =>
    have hfirst := plainly_spanAtoms spans (h spans (List.mem_cons_self ..))
    have hrest := ih fun line hline => h line (List.mem_cons_of_mem _ hline)
    cases lines with
    | nil => simpa using hfirst
    | cons next lines =>
      rw [List.map_cons, List.map_cons, List.intercalate_cons_cons]
      exact (hfirst.append (plainly_markupAtoms (by decide))).append hrest

/-- **Without backslashes nothing escapes**: a message none of whose dynamic texts
has a backslash is read as it was meant. -/
theorem read_of_backslashFree {lines : List (List Span)} (h : ∀ spans ∈ lines, BackslashFree spans)
    {s : String} (hs : renderMessage lines = some s) :
    readMdv2 s = mdv2.intended .text (messageAtoms lines) := by
  rw [readMdv2, ← text_messageAtoms hs]
  exact mdv2.read_of_inert (writtenAlone_messageAtoms lines).1 (plainly_messageAtoms lines h).inert

/-- **Escaping.**  A text that `escape_mdv2` has escaped reads back as that text,
without markup, exactly when it has no backslash before a special character or
another backslash; and a rendered message reads as it was meant exactly when its
dynamic texts are inert where they stand. -/
theorem rendered_message_read_iff (text : String) (lines : List (List Span)) :
    (readMdv2 (escapeMdv2 text) = text.toList.map .literal ↔ NoEscape text) ∧
      ∀ s, renderMessage lines = some s →
        (readMdv2 s = mdv2.intended .text (messageAtoms lines) ↔
          mdv2.Inert .text (messageAtoms lines)) := by
  constructor
  · rw [← intended_textAtoms, ← inert_textAtoms, readMdv2, ← text_textAtoms]
    exact mdv2.read_eq_intended_iff (writtenAlone_textAtoms text).1 .text
  · intro s h
    rw [readMdv2, ← text_messageAtoms h]
    exact mdv2.read_eq_intended_iff (writtenAlone_messageAtoms lines).1 .text

/-- A learner's word in bold, with a footnote in code. -/
def boldWord : List (List Span) := [[.bold [.plain "a*b"], .newline, .code "x\\y"], [.plain "1."]]

theorem rendered_message_read_boldWord :
    readMdv2 "*a\\*b*\n`x\\\\y`\n1\\." = mdv2.intended .text (messageAtoms boldWord) :=
  ((rendered_message_read_iff "a*b" boldWord).2 _ (by decide)).mpr (by decide)

/-- An escaped backslash and star read back as a backslash and markup. -/
theorem backslash_opens_markup :
    readMdv2 (escapeMdv2 "\\*") = [.literal '\\', .active '*'] := by decide

end HamZaboon
