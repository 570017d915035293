import HamZaboon.Library.Delimiters
import HamZaboon.Library.Results
import HamZaboon.Messages.Spans

/-! # Span trees in HTML

The HTML renderer of `services/send_pretty.py` and the reader on the other side: tags open
and close elements, and a reference between `&` and `;` stands for a character.  Every
message whose emoji ids hold no markup is read as the tree it was built from
(`html_read_as_built`), whatever its texts and links hold.
-/

namespace HamZaboon
open Library

/-- The references that `html.escape` writes. -/
def htmlReferences : List (Char × List Char) :=
  [('&', "amp".toList), ('<', "lt".toList), ('>', "gt".toList), ('"', "quot".toList),
    (Char.ofNat 39, "#x27".toList)]

def escapeHtmlChar (c : Char) : List Char :=
  match htmlReferences.lookup c with
  | some name => '&' :: name ++ [';']
  | none => [c]

def htmlEscape (text : String) : String := String.ofList (text.toList.flatMap escapeHtmlChar)

mutual
/-- One span of `_render_html`; `none` for the `TypeError`. -/
def Span.renderHtml : Span → Option String
  | .plain text => some (htmlEscape text)
  | .bold children => (renderHtml children).map fun inner => "<b>" ++ inner ++ "</b>"
  | .italic children => (renderHtml children).map fun inner => "<i>" ++ inner ++ "</i>"
  | .code text => some ("<code>" ++ htmlEscape text ++ "</code>")
  | .spoiler children | .tgSpoiler children => (renderHtml children).map fun inner =>
      "<span class=\"tg-spoiler\">" ++ inner ++ "</span>"
  | .underline children => (renderHtml children).map fun inner => "<u>" ++ inner ++ "</u>"
  | .strikethrough children => (renderHtml children).map fun inner => "<s>" ++ inner ++ "</s>"
  | .marked children => (renderHtml children).map fun inner => "<mark>" ++ inner ++ "</mark>"
  | .link url children => (renderHtml children).map fun inner =>
      "<a href=\"" ++ htmlEscape url ++ "\">" ++ inner ++ "</a>"
  | .quote children =>
      (renderHtml children).map fun inner => "<blockquote>" ++ inner ++ "</blockquote>"
  | .newline => some "\n"
  | .customEmoji customEmojiId fallback =>
      some ("<tg-emoji emoji-id=\"" ++ customEmojiId ++ "\">" ++ htmlEscape fallback ++
        "</tg-emoji>")
  | .richOnly => none

def renderHtml : List Span → Option String
  | [] => some ""
  | span :: spans => span.renderHtml.bind fun a => (renderHtml spans).map fun b => a ++ b
end

/-- `Message.render`, for HTML. -/
def renderHtmlMessage (lines : List (List Span)) : Option String :=
  (lines.mapM renderHtml).map fun rendered => "\n".intercalate rendered

/-! ## The reader -/

/-- What a tag opens: its name, and its attribute with the value. -/
structure HtmlElement where
  name : List Char
  attr : Option (List Char × List Char)
  deriving DecidableEq, Repr

/-- A character of a text, outside a reference or inside one: what it is for, if it ends one. -/
def readReference : Option (List Char) → Char → Option (List Char ⊕ Char)
  | none, c => some (if c = '&' then .inl [] else .inr c)
  | some name, c =>
      if c = ';' then (htmlReferences.find? fun r => r.2 = name).map fun r => .inr r.1
      else some (.inl (name ++ [c]))

/-- A text with its references replaced. -/
def unescapeHtml : Option (List Char) → List Char → Option (List Char)
  | none, [] => some []
  | some _, [] => none
  | pending, c :: text =>
      match readReference pending c with
      | some (.inl name) => unescapeHtml (some name) text
      | some (.inr d) => (unescapeHtml none text).map (d :: ·)
      | none => none

/-- What stands between `<` and `>` of an opening tag. -/
def parseTag (body : List Char) : Option HtmlElement :=
  match body.dropWhile (· ≠ ' ') with
  | [] => some ⟨body, none⟩
  | _ :: rest =>
      match rest.dropWhile (· ≠ '"') with
      | '"' :: value =>
          if value.dropWhile (· ≠ '"') = ['"'] then
            (unescapeHtml none (value.takeWhile (· ≠ '"'))).map fun v =>
              ⟨body.takeWhile (· ≠ ' '), some (rest.takeWhile (· ≠ '"'), v)⟩
          else none
      | _ => none

/-- A tag: a closing one closes the innermost open element, which must have its name. -/
def readTag : OpenEntities Char HtmlElement → List Char → Option (OpenEntities Char HtmlElement)
  | (found, around), '/' :: name =>
      match around with
      | (e, front) :: around =>
          if e.name = name then some (front ++ [.entity e found], around) else none
      | [] => none
  | (found, around), body => (parseTag body).map fun e => ([], (e, found) :: around)

/-- Where a reader stands: in a text, with the reference begun, or in a tag. -/
inductive HtmlMode
  | text (pending : Option (List Char))
  | tag (body : List Char)

def readHtmlChar : HtmlMode × OpenEntities Char HtmlElement → Char →
    Option (HtmlMode × OpenEntities Char HtmlElement)
  | (.tag body, o), c =>
      if c = '>' then (readTag o body).map fun o' => (.text none, o')
      else some (.tag (body ++ [c]), o)
  | (.text pending, o), c =>
      if pending = none ∧ c = '<' then some (.tag [], o)
      else
        match readReference pending c with
        | some (.inl name) => some (.text (some name), o)
        | some (.inr d) => some (.text none, (o.1 ++ [.leaf d], o.2))
        | none => none

/-- A text as a reader of HTML takes it; `none` where it is rejected. -/
def readHtml (text : String) : Option (List (Nested Char HtmlElement)) :=
  match text.toList.foldlM readHtmlChar (.text none, ([], [])) with
  | some (.text none, (found, [])) => some found
  | _ => none

/-! ## What is meant -/

mutual
def Span.htmlNodes : Span → List (Nested Char HtmlElement)
  | .plain text => text.toList.map .leaf
  | .bold children => [.entity ⟨"b".toList, none⟩ (htmlNodes children)]
  | .italic children => [.entity ⟨"i".toList, none⟩ (htmlNodes children)]
  | .code text => [.entity ⟨"code".toList, none⟩ (text.toList.map .leaf)]
  | .spoiler children | .tgSpoiler children =>
      [.entity ⟨"span".toList, some ("class=".toList, "tg-spoiler".toList)⟩ (htmlNodes children)]
  | .underline children => [.entity ⟨"u".toList, none⟩ (htmlNodes children)]
  | .strikethrough children => [.entity ⟨"s".toList, none⟩ (htmlNodes children)]
  | .marked children => [.entity ⟨"mark".toList, none⟩ (htmlNodes children)]
  | .link url children =>
      [.entity ⟨"a".toList, some ("href=".toList, url.toList)⟩ (htmlNodes children)]
  | .quote children => [.entity ⟨"blockquote".toList, none⟩ (htmlNodes children)]
  | .newline => [.leaf '\n']
  | .customEmoji customEmojiId fallback =>
      [.entity ⟨"tg-emoji".toList, some ("emoji-id=".toList, customEmojiId.toList)⟩
        (fallback.toList.map .leaf)]
  | .richOnly => []

def htmlNodes : List Span → List (Nested Char HtmlElement)
  | [] => []
  | span :: spans => span.htmlNodes ++ htmlNodes spans
end

mutual
/-- The ids of custom emoji, which are not escaped, hold no markup. -/
def Span.IdsPlain : Span → Prop
  | .customEmoji customEmojiId _ => ∀ c ∈ customEmojiId.toList, c ∉ "\"&>".toList
  | .bold children | .italic children | .spoiler children | .tgSpoiler children
  | .underline children | .strikethrough children | .marked children | .link _ children
  | .quote children => SpansIdsPlain children
  | .plain _ | .code _ | .newline | .richOnly => True

def SpansIdsPlain : List Span → Prop
  | [] => True
  | span :: spans => span.IdsPlain ∧ SpansIdsPlain spans
end

/-! ## Reading what was written -/

theorem escapeHtmlChar_cases (c : Char) :
    c ∈ htmlReferences.map (·.1) ∨
      escapeHtmlChar c = [c] ∧ c ≠ '&' ∧ c ≠ '<' ∧ c ≠ '"' ∧ c ≠ '>' := by
  by_cases hc : c ∈ htmlReferences.map (·.1)
  · exact .inl hc
  · have hlookup : htmlReferences.lookup c = none := List.lookup_eq_none_iff.mpr fun r hr =>
      bne_iff_ne.mpr fun heq => hc (heq ▸ List.mem_map_of_mem hr)
    refine .inr ⟨by rw [escapeHtmlChar, hlookup], ?_⟩
    refine ⟨?_, ?_, ?_, ?_⟩ <;> rintro rfl <;> exact hc (by decide)

/-- The text is read as the nodes, wherever it stands. -/
def ReadsAs (text : List Char) (nodes : List (Nested Char HtmlElement)) : Prop :=
  ∀ found around, text.foldlM readHtmlChar (.text none, (found, around)) =
    some (.text none, (found ++ nodes, around))

theorem ReadsAs.nil : ReadsAs [] [] := fun found around => by rw [List.append_nil]; rfl

theorem ReadsAs.append {a b : List Char} {xs ys : List (Nested Char HtmlElement)}
    (ha : ReadsAs a xs) (hb : ReadsAs b ys) : ReadsAs (a ++ b) (xs ++ ys) := by
  intro found around
  rw [List.foldlM_append, ha, ← List.append_assoc]
  exact hb _ _

theorem readsAs_escapeHtmlChar (c : Char) : ReadsAs (escapeHtmlChar c) [.leaf c] := by
  intro found around
  rcases escapeHtmlChar_cases c with h | ⟨h, hamp, hlt, -, -⟩
  · simp only [htmlReferences, List.map_cons, List.map_nil, List.mem_cons, List.not_mem_nil,
      or_false] at h
    rcases h with rfl | rfl | rfl | rfl | rfl <;> rfl
  · rw [h]
    simp [readHtmlChar, readReference, hamp, hlt]

theorem readsAs_htmlEscape (text : String) :
    ReadsAs (htmlEscape text).toList (text.toList.map .leaf) := by
  rw [htmlEscape, String.toList_ofList]
  induction text.toList with
  | nil => exact .nil
  | cons c cs ih => exact (readsAs_escapeHtmlChar c).append ih

theorem unescapeHtml_escape (cs : List Char) :
    unescapeHtml none (cs.flatMap escapeHtmlChar) = some cs := by
  induction cs with
  | nil => rfl
  | cons c cs ih =>
    rw [List.flatMap_cons]
    rcases escapeHtmlChar_cases c with h | ⟨h, hamp, -, -, -⟩
    · simp only [htmlReferences, List.map_cons, List.map_nil, List.mem_cons, List.not_mem_nil,
        or_false] at h
      rcases h with rfl | rfl | rfl | rfl | rfl <;> exact congrArg (Option.map (List.cons _)) ih
    · rw [h, List.singleton_append]
      simp [unescapeHtml, readReference, hamp, ih]

theorem foldlM_tag {text : List Char} (h : '>' ∉ text) (body : List Char)
    (o : OpenEntities Char HtmlElement) :
    text.foldlM readHtmlChar (.tag body, o) = some (.tag (body ++ text), o) := by
  induction text generalizing body with
  | nil => rw [List.append_nil]; rfl
  | cons c text ih =>
    obtain ⟨hc, htext⟩ := not_or.mp (List.mem_cons.not.mp h)
    rw [List.foldlM_cons, readHtmlChar, if_neg (Ne.symm hc)]
    simpa using ih htext (body ++ [c])

/-- The tag opens the element, wherever it stands. -/
def Opens (tag : List Char) (e : HtmlElement) : Prop :=
  ∀ found around, tag.foldlM readHtmlChar (.text none, (found, around)) =
    some (.text none, ([], (e, found) :: around))

def Closes (tag : List Char) (e : HtmlElement) : Prop :=
  ∀ found front around, tag.foldlM readHtmlChar (.text none, (found, (e, front) :: around)) =
    some (.text none, (front ++ [.entity e found], around))

theorem ReadsAs.element {a b text : List Char} {e : HtmlElement}
    {nodes : List (Nested Char HtmlElement)} (ha : Opens a e) (h : ReadsAs text nodes)
    (hb : Closes b e) : ReadsAs (a ++ text ++ b) [.entity e nodes] := by
  intro found around
  rw [List.append_assoc, List.foldlM_append, ha]
  show (text ++ b).foldlM readHtmlChar (.text none, ([], (e, found) :: around)) = _
  rw [List.foldlM_append, h]
  exact hb _ _ _

theorem parseTag_attr {name key value v : List Char} (hname : ' ' ∉ name) (hkey : '"' ∉ key)
    (hvalue : '"' ∉ value) (hread : unescapeHtml none value = some v) :
    parseTag (name ++ ' ' :: (key ++ '"' :: (value ++ ['"']))) = some ⟨name, some (key, v)⟩ := by
  have hspan : ∀ {d : Char} {a b : List Char}, d ∉ a →
      (a ++ d :: b).dropWhile (· ≠ d) = d :: b ∧ (a ++ d :: b).takeWhile (· ≠ d) = a := by
    intro d a b ha
    have hne : ∀ c ∈ a, decide (c ≠ d) = true := fun c hc => decide_eq_true fun heq => ha (heq ▸ hc)
    rw [List.dropWhile_append_of_pos hne, List.takeWhile_append_of_pos hne]
    simp
  simp only [parseTag, (hspan hname).1, (hspan hkey).1, (hspan hvalue).1, (hspan hname).2,
    (hspan hkey).2, (hspan hvalue).2, hread, if_true, Option.map_some]

/-- A tag with one attribute, whose value is written without markup. -/
theorem opens_attr (name key : List Char) {value v : List Char} (hname : ' ' ∉ name) (hkey : '"' ∉ key)
    (hvalue : '"' ∉ value) (hend : '>' ∉ name ++ key ++ value) (hslash : name.head? ≠ some '/')
    (hread : unescapeHtml none value = some v) :
    Opens ('<' :: name ++ ' ' :: key ++ '"' :: value ++ ['"', '>']) ⟨name, some (key, v)⟩ := by
  intro found around
  have hbody : '<' :: name ++ ' ' :: key ++ '"' :: value ++ ['"', '>'] =
      '<' :: (name ++ ' ' :: (key ++ '"' :: (value ++ ['"'])) ++ ['>']) := by simp
  have hno : '>' ∉ name ++ ' ' :: (key ++ '"' :: (value ++ ['"'])) := by
    simpa [and_assoc] using hend
  have htag : readTag (found, around) (name ++ ' ' :: (key ++ '"' :: (value ++ ['"']))) =
      some ([], (⟨name, some (key, v)⟩, found) :: around) := by
    rw [readTag.eq_3 _ _ _ (by rintro _ heq; cases name <;> simp_all),
      parseTag_attr hname hkey hvalue hread, Option.map_some]
  rw [hbody, List.foldlM_cons]
  show (name ++ ' ' :: (key ++ '"' :: (value ++ ['"'])) ++ ['>']).foldlM readHtmlChar
    (.tag [], (found, around)) = _
  rw [List.foldlM_append, foldlM_tag hno, List.nil_append]
  show ['>'].foldlM readHtmlChar (.tag _, (found, around)) = _
  simp [readHtmlChar, htag]

theorem not_mem_htmlEscape (text : String) :
    '"' ∉ (htmlEscape text).toList ∧ '>' ∉ (htmlEscape text).toList := by
  have hchar : ∀ c, '"' ∉ escapeHtmlChar c ∧ '>' ∉ escapeHtmlChar c := by
    intro c
    rcases escapeHtmlChar_cases c with h | ⟨h, -, -, hquote, hgt⟩
    · simp only [htmlReferences, List.map_cons, List.map_nil, List.mem_cons, List.not_mem_nil,
        or_false] at h
      rcases h with rfl | rfl | rfl | rfl | rfl <;> decide
    · simp [h, Ne.symm hquote, Ne.symm hgt]
  rw [htmlEscape, String.toList_ofList]
  simp only [List.mem_flatMap, not_exists, not_and]
  exact ⟨fun c _ => (hchar c).1, fun c _ => (hchar c).2⟩

theorem readsAs_link (url : String) {text : String} {nodes : List (Nested Char HtmlElement)}
    (h : ReadsAs text.toList nodes) :
    ReadsAs ("<a href=\"" ++ htmlEscape url ++ "\">" ++ text ++ "</a>").toList
      [.entity ⟨"a".toList, some ("href=".toList, url.toList)⟩ nodes] := by
  obtain ⟨hquote, hgt⟩ := not_mem_htmlEscape url
  have hopen := opens_attr "a".toList "href=".toList (by decide) (by decide)
    hquote (by simpa using hgt) (by decide) (by
      rw [htmlEscape, String.toList_ofList]; exact unescapeHtml_escape _)
  have helement := ReadsAs.element hopen h (b := "</a>".toList) fun _ _ _ => rfl
  simpa using helement

theorem readsAs_customEmoji {id : String} (h : ∀ c ∈ id.toList, c ∉ "\"&>".toList)
    (fallback : String) :
    ReadsAs ("<tg-emoji emoji-id=\"" ++ id ++ "\">" ++ htmlEscape fallback ++ "</tg-emoji>").toList
      [.entity ⟨"tg-emoji".toList, some ("emoji-id=".toList, id.toList)⟩
        (fallback.toList.map .leaf)] := by
  have hno : ∀ d ∈ "\"&>".toList, d ∉ id.toList := fun d hd hmem => h d hmem hd
  have hread : unescapeHtml none id.toList = some id.toList := by
    have hamp := hno '&' (by decide)
    generalize id.toList = cs at hamp
    induction cs with
    | nil => rfl
    | cons c cs ih =>
      obtain ⟨hc, hcs⟩ := not_or.mp (List.mem_cons.not.mp hamp)
      simp [unescapeHtml, readReference, Ne.symm hc, ih hcs]
  have hopen := opens_attr "tg-emoji".toList "emoji-id=".toList (by decide)
    (by decide) (hno '"' (by decide)) (by simpa using hno '>' (by decide)) (by decide) hread
  have helement := ReadsAs.element hopen (readsAs_htmlEscape fallback) (b := "</tg-emoji>".toList)
    fun _ _ _ => rfl
  simpa using helement

/-- An element with a tag that has no value to be filled in. -/
theorem readsAs_element {a b : String} {e : HtmlElement} {children : List Span} {text : String}
    (ha : Opens a.toList e) (hb : Closes b.toList e)
    (h : ∀ inner, renderHtml children = some inner → ReadsAs inner.toList (htmlNodes children))
    (hrender : (renderHtml children).map (fun inner => a ++ inner ++ b) = some text) :
    ReadsAs text.toList [.entity e (htmlNodes children)] := by
  obtain ⟨inner, hinner, rfl⟩ := Option.map_eq_some_iff.mp hrender
  rw [String.toList_append, String.toList_append]
  exact .element ha (h inner hinner) hb

mutual
theorem Span.readsAs_html (span : Span) {text : String} (hids : span.IdsPlain)
    (h : span.renderHtml = some text) : ReadsAs text.toList span.htmlNodes := by
  cases span with
  | plain content =>
    obtain rfl := Option.some.inj h
    exact readsAs_htmlEscape content
  | code content =>
    obtain rfl := Option.some.inj h
    rw [String.toList_append, String.toList_append]
    exact .element (fun _ _ => rfl) (readsAs_htmlEscape content) fun _ _ _ => rfl
  | newline =>
    obtain rfl := Option.some.inj h
    exact fun _ _ => rfl
  | customEmoji id fallback =>
    obtain rfl := Option.some.inj h
    exact readsAs_customEmoji hids fallback
  | link url children =>
    obtain ⟨inner, hinner, rfl⟩ := Option.map_eq_some_iff.mp h
    exact readsAs_link url (readsAs_htmlNodes children hids hinner)
  | bold children | italic children | spoiler children | tgSpoiler children | underline children
  | strikethrough children | marked children | quote children =>
    exact readsAs_element (fun _ _ => rfl) (fun _ _ _ => rfl)
      (fun _ => readsAs_htmlNodes children hids) h
  | richOnly => cases h

theorem readsAs_htmlNodes (spans : List Span) {text : String} (hids : SpansIdsPlain spans)
    (h : renderHtml spans = some text) : ReadsAs text.toList (htmlNodes spans) := by
  cases spans with
  | nil =>
    obtain rfl := Option.some.inj h
    exact .nil
  | cons span spans =>
    obtain ⟨a, ha, hrest⟩ := Option.bind_eq_some_iff.mp h
    obtain ⟨b, hb, rfl⟩ := Option.map_eq_some_iff.mp hrest
    rw [String.toList_append]
    exact (span.readsAs_html hids.1 ha).append (readsAs_htmlNodes spans hids.2 hb)
end

/-- What a message is meant to be read as: its lines with line breaks between them. -/
def messageHtmlNodes (lines : List (List Span)) : List (Nested Char HtmlElement) :=
  [.leaf '\n'].intercalate (lines.map htmlNodes)

theorem readsAs_lines {lines : List (List Span)} {rendered : List String}
    (hids : ∀ spans ∈ lines, SpansIdsPlain spans)
    (h : List.Forall₂ (fun spans text => renderHtml spans = some text) lines rendered) :
    ReadsAs ("\n".intercalate rendered).toList (messageHtmlNodes lines) := by
  rw [String.toList_intercalate, messageHtmlNodes]
  induction h with
  | nil => exact .nil
  | @cons spans text lines rendered htext hrest ih =>
    have hspans := readsAs_htmlNodes spans (hids _ List.mem_cons_self) htext
    specialize ih fun s hs => hids s (List.mem_cons_of_mem _ hs)
    cases hrest with
    | nil => simpa using hspans
    | cons _ _ =>
      simp only [List.map_cons, List.intercalate_cons_cons] at ih ⊢
      have hbreak : ReadsAs "\n".toList [.leaf '\n'] := fun _ _ => rfl
      exact (hspans.append hbreak).append ih

/-- **A message in HTML is read as it was built.** -/
theorem html_read_as_built {lines : List (List Span)} {text : String}
    (hids : ∀ spans ∈ lines, SpansIdsPlain spans) (h : renderHtmlMessage lines = some text) :
    readHtml text = some (messageHtmlNodes lines) := by
  obtain ⟨rendered, hrendered, rfl⟩ := Option.map_eq_some_iff.mp h
  have hlines := readsAs_lines hids (forall₂_of_mapM hrendered)
  rw [readHtml, hlines [] []]
  rfl

theorem html_read_as_built_markup :
    ∃ text, renderHtmlMessage [[.bold [.plain "a<b>&amp;"], .link "?x=\">" [.plain "c"]],
        [.customEmoji "5" "*"]] = some text ∧
      readHtml text = some (messageHtmlNodes [[.bold [.plain "a<b>&amp;"],
        .link "?x=\">" [.plain "c"]], [.customEmoji "5" "*"]]) :=
  ⟨_, rfl, html_read_as_built (by simp [SpansIdsPlain, Span.IdsPlain]) rfl⟩

end HamZaboon
