import HamZaboon.Library.Pattern
import HamZaboon.Texts.Unicode

/-! # Glosses

What the regular expressions of `judge.py` and `anchor.py` say of a gloss: that it is a
mere inflection, a bucket of other senses, a name, or a reference to another word.
-/

namespace HamZaboon
open Library

/-- The tables of Python's `str` and `re`, with `str.lower` and `str.upper`. -/
structure GlossText extends PyText where
  lower : String → String
  upper : String → String

def GlossText.ascii : GlossText where
  toPyText := .ascii
  lower s := String.ofList (s.toList.map Char.toLower)
  upper s := String.ofList (s.toList.map Char.toUpper)

section Patterns
variable (py : PyText) {β : Type}

/-- Words under `(?i)`, with `\s+` between them. -/
def spaced (ws : List String) (k : Pattern β) : Pattern β := Pattern.words py.sameCase py.isSpace ws k

/-- `(.+?)\s*\.?\s*$`. -/
def targetToEnd : Pattern (List Char) :=
  Pattern.lazyPlus (· ≠ '\n') fun target =>
    .many py.isSpace (.maybe (Pattern.lit (· = ·) ['.']) (.many py.isSpace (.close target)))

/-! ## Inflections -/

/-- The forms of `_INFLECTION_RX`. -/
def inflectionForms : List (List String) :=
  [["plural"], ["past"], ["past", "participle"], ["present", "participle"],
    ["present", "participle", "and", "gerund"], ["gerund"], ["comparative"],
    ["comparative", "degree"], ["superlative"], ["superlative", "degree"],
    ["third-person", "singular"], ["third", "person", "singular"]]

/-- `_INFLECTION_RX`, behind this character. -/
def inflectionAt (before : Option Char) : Pattern Unit :=
  if before.any py.isWord then fun _ => none
  else .oneOf (inflectionForms.map fun form => spaced py (form ++ ["of"]) (.wordEnd py.isWord ()))

def isInflectionGloss (gloss : String) : Bool :=
  (Pattern.search (inflectionAt py) none gloss.toList).isSome

/-- The group of `_SUPERLATIVE_RX`. -/
def superlativeTarget (gloss : String) : Option (List Char) :=
  Pattern.many py.isSpace (.oneOf (["superlative", "comparative"].map fun degree =>
    Pattern.lit py.sameCase degree.toList (.maybe
      (fun k => .plus py.isSpace (Pattern.lit py.sameCase "form".toList k))
      (.plus py.isSpace (Pattern.lit py.sameCase "of".toList
        (.plus py.isSpace (targetToEnd py))))))) gloss.toList

/-- `is_superlative_gloss` of the judge. -/
def isSuperlativeForm (gloss : String) : Bool := (superlativeTarget py gloss).isSome

def isVetoStubGloss (gloss : String) : Bool :=
  isInflectionGloss py gloss || isSuperlativeForm py gloss

theorem isVetoStubGloss_empty : isVetoStubGloss py "" = false := rfl

/-- `\b(?:…)\b` under `(?i)`, behind this character. -/
def wholeWordAt (ws : List String) (before : Option Char) : Pattern Unit :=
  if before.any py.isWord then fun _ => none
  else .oneOf (ws.map fun w => Pattern.lit py.sameCase w.toList (.wordEnd py.isWord ()))

/-- One of the words stands in the text. -/
def hasWholeWord (ws : List String) (text : String) : Bool :=
  (Pattern.search (wholeWordAt py ws) none text.toList).isSome

/-! ## Cross-references -/

/-- The quotes around a target. -/
def quoteChars : List Char := ['\'', '"', '\u201C', '\u201D', '\u2018', '\u2019']

/-- A target without its quotes and dots. -/
def cleanTarget (target : List Char) : List Char :=
  let unquoted := trim py.isSpace (trim (· ∈ quoteChars) (trim py.isSpace target))
  trim py.isSpace (unquoted.rdropWhile (· = '.'))

/-- `parse_superlative_base`: the base of an inflection, one word of ASCII letters. -/
def parseSuperlativeBase (gloss : String) : String :=
  match superlativeTarget py gloss with
  | none => ""
  | some target =>
    let base := trim py.isSpace ((cleanTarget py target).takeWhile (· ∉ [':', ';', ',', '(']))
    if base.all Char.isAlpha then String.ofList base else ""

/-- `is_superlative_gloss` of the anchor. -/
def isSuperlativeGloss (gloss : String) : Bool := parseSuperlativeBase py gloss ≠ ""

/-- `_XREF_RES`. -/
def xrefPatterns : List (Pattern (List Char)) :=
  [spaced py ["alternative"] (.plus py.isSpace (.maybe
      (fun k => .plus (fun c => py.isWord c || c = '-') (.plus py.isSpace k))
      (.oneOf (["form", "spelling"].map fun noun =>
        spaced py [noun, "of"] (.plus py.isSpace (targetToEnd py)))))),
    .oneOf (["synonym", "variant"].map fun noun =>
      spaced py [noun, "of"] (.plus py.isSpace (targetToEnd py))),
    spaced py ["see"] (.plus py.isSpace (.maybe
      (fun k => spaced py ["also"] (.plus py.isSpace k)) (targetToEnd py)))]

/-- `detect_xref`: the target of a gloss that is a cross-reference as a whole. -/
def detectXref (gloss : String) : Option String :=
  (Pattern.oneOf (xrefPatterns py) (trim py.isSpace gloss.toList)).bind fun target =>
    if cleanTarget py target = [] then none else some (String.ofList (cleanTarget py target))

/-! ## Names -/

/-- The heads of `_NAME_GLOSS_RX`. -/
def nameHeads : List (List String) :=
  [["given", "name"], ["surname"], ["family", "name"], ["place", "name"], ["first", "name"],
    ["last", "name"], ["maiden", "name"], ["nickname"], ["pet", "form", "of"],
    ["diminutive", "of"], ["short", "form", "of"]]

/-- `[\w'’-]+\s+`. -/
def nameWord (k : Pattern β) : Pattern β :=
  .plus (fun c => py.isWord c || c ∈ ['\'', '\u2019', '-']) (.plus py.isSpace k)

/-- `_NAME_GLOSS_RX`. -/
def nameGlossPattern : Pattern Unit :=
  .many py.isSpace (.oneOf (["a", "an", "the"].map fun article =>
    spaced py [article] (.plus py.isSpace (.maybe
      (fun k => .oneOf (["male", "female", "unisex", "masculine", "feminine"].map fun sex =>
        spaced py [sex] (.plus py.isSpace k)))
      (.maybe (fun k => nameWord py (.maybe (nameWord py) k))
        (.oneOf (nameHeads.map fun head => spaced py head (.wordEnd py.isWord ()))))))))

def isNameGloss (gloss : String) : Bool := (nameGlossPattern py gloss.toList).isSome

end Patterns

/-- `_is_meta_gloss`: a bucket of other senses. -/
def isMetaGloss (py : GlossText) (gloss : String) : Bool :=
  (Pattern.lit (β := Unit) (· = ·) "senses relating to".toList (.wordEnd py.isWord ())
    (py.lower (py.strip gloss)).toList).isSome

end HamZaboon
