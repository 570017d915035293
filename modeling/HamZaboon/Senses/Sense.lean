import HamZaboon.Cards.Validation
import HamZaboon.Library.Json

/-! # Dictionary senses

`factory/precard/prune.py`, and what it takes from `anchor.py`: what the
screens read off a sense.  A sense is any decoded JSON value.  The readers of
its list fields stop when a field cannot be iterated, as the `for` of the source
raises; then they return nothing.
-/

namespace HamZaboon
open Library

namespace PyText
variable (py : PyText)

/-! ## Texts -/

def rawText : JsonValue → Option String
  | .str value => if py.strip value = "" then none else some value
  | _ => none

def textOf (value : JsonValue) : Option String := (py.rawText value).map py.strip

/-- `str(value)`. -/
def pyStr : JsonValue → String
  | .null => "None"
  | .bool value => if value then "True" else "False"
  | .int value => toString value
  | .str value => value
  | value => py.display value

def normalizeGloss (gloss : String) : String := py.collapse (py.casefold gloss)

def senseGloss : JsonValue → Option String
  | .obj sense => do
    let glosses ← (Dict.get sense "glosses").iterate
    return ((glosses.findSome? py.textOf).or (py.textOf (Dict.get sense "gloss"))).getD ""
  | _ => some ""

def senseTags : JsonValue → Option (List String)
  | .obj sense => do
    let tags ← (Dict.get sense "tags").iterate
    return (tags.filterMap py.textOf).map py.casefold
  | _ => some []

/-- The name of a category; a bare text is its own name. -/
def categoryName : JsonValue → JsonValue
  | .obj category => Dict.get category "name"
  | value => value

def senseTopics : JsonValue → Option (List String)
  | .obj sense => do
    let topics ← (Dict.get sense "topics").iterate
    let categories ← (Dict.get sense "categories").iterate
    return (((topics ++ categories.map categoryName).filterMap py.textOf).map py.casefold).dedup
  | _ => some []

def exampleChars (item : JsonValue) : Nat :=
  let text := match item with
    | .obj entries => Dict.get entries "text"
    | value => value
  match text with
  | .str text => text.length
  | _ => 0

def exampleRichness : JsonValue → Nat × Nat
  | .obj sense =>
    match Dict.get sense "examples" with
    | .arr items => (items.length, items.foldl (fun chars item => chars + exampleChars item) 0)
    | _ => (0, 0)
  | _ => (0, 0)

/-- One value of `pos`. -/
def posValue : JsonValue → Option String
  | .null => none
  | value =>
    if py.strip (py.pyStr value) = "" then none
    else some (py.casefold (py.strip (py.pyStr value)))

def sensePos : JsonValue → List String
  | .obj sense =>
    match Dict.get sense "pos" with
    | .arr items => items.filterMap py.posValue
    | value => (py.posValue value).toList
  | _ => []

def posIsName (sense : JsonValue) : Bool := "name" ∈ py.sensePos sense

/-! ## Patterns of glosses -/

/-- The tables as the word search takes them. -/
def alphabet : Alphabet := ⟨py.isWord, py.sameCase, py.isSpace⟩

/-- A literal word of a pattern at the head of the text: what follows it. -/
def literal (word : String) (text : List Char) : Option (List Char) :=
  py.alphabet.stripWord word.toList text

/-- `\s+` at the head of the text: what follows it. -/
def spaces (text : List Char) : Option (List Char) :=
  if text.head?.any py.isSpace then some (text.dropWhile py.isSpace) else none

/-- `_INITIALISM_RX`. -/
def isInitialism (gloss : String) : Bool :=
  let rest := do
    let text ← py.literal "initialism" (gloss.toList.dropWhile py.isSpace)
    let text ← py.spaces text
    py.literal "of" text
  rest.any fun rest => !rest.head?.any py.isWord

/-- `\s*\.?\s*$`. -/
def xrefEnds (text : List Char) : Bool :=
  match text.dropWhile py.isSpace with
  | '.' :: rest => rest.all py.isSpace
  | rest => rest.isEmpty

/-- `(.+?)\s*\.?\s*$`: the group. -/
def xrefTarget : List Char → Option (List Char)
  | [] => none
  | c :: text =>
    if c = '\n' then none
    else if py.xrefEnds text then some [c]
    else (xrefTarget text).map (c :: ·)

/-- `(?:form|spelling)\s+of\s+` and the target. -/
def formOf (text : List Char) : Option (List Char) := do
  let text ← (py.literal "form" text).or (py.literal "spelling" text)
  let text ← py.spaces text
  let text ← py.literal "of" text
  let text ← py.spaces text
  py.xrefTarget text

/-- `[\w\-]+\s+`: what follows it. -/
def qualifier (text : List Char) : Option (List Char) :=
  let letter := fun c => py.isWord c || c = '-'
  if text.head?.any letter then py.spaces (text.dropWhile letter) else none

/-- The first of `_XREF_RES`. -/
def alternativeXref (gloss : List Char) : Option (List Char) := do
  let text ← py.literal "alternative" gloss
  let text ← py.spaces text
  ((py.qualifier text).bind py.formOf).or (py.formOf text)

/-- The second of `_XREF_RES`. -/
def synonymXref (gloss : List Char) : Option (List Char) := do
  let text ← (py.literal "synonym" gloss).or (py.literal "variant" gloss)
  let text ← py.spaces text
  let text ← py.literal "of" text
  let text ← py.spaces text
  py.xrefTarget text

/-- The third of `_XREF_RES`. -/
def seeXref (gloss : List Char) : Option (List Char) := do
  let text ← py.literal "see" gloss
  let text ← py.spaces text
  (((py.literal "also" text).bind py.spaces).bind py.xrefTarget).or (py.xrefTarget text)

/-- A target without quotes and a last dot. -/
def bareTarget (target : List Char) : List Char :=
  let unquoted := trim (· ∈ "'\"“”‘’".toList) (trim py.isSpace target)
  trim py.isSpace ((trim py.isSpace unquoted).rdropWhile (· = '.'))

def detectXref (gloss : String) : Option String :=
  let g := trim py.isSpace gloss.toList
  let hit := ((py.alternativeXref g).or (py.synonymXref g)).or (py.seeXref g)
  hit.bind fun target =>
    if py.bareTarget target = [] then none else some (String.ofList (py.bareTarget target))

/-! ## Tags -/

def obsoleteTags : List String := ["obsolete", "archaic", "dated", "historical"]

def acronymShapeTags : List String := ["abbreviation", "initialism", "alt-of"]

def dialectalTags : List String :=
  ["dialectal", "northern-england", "midwestern-us", "southern-us", "scotland"]

def nicheTopics : List String := ["nautical", "heraldry", "billiards", "cricket", "entomology"]

def obsoleteSet : List String := obsoleteTags.map fun tag => py.casefold (py.strip tag)

def isObscureAcronym (sense : JsonValue) (gloss : String) : Option Bool :=
  if py.isInitialism gloss && py.posIsName sense then
    (py.senseTags sense).map fun tags => tags.any (· ∈ acronymShapeTags)
  else some false

/-- `_is_formof_sense`; its cache holds what it computes, and an exception counts
as a real sense. -/
def isFormofSense : JsonValue → Bool
  | .obj sense =>
    match (Dict.get sense "tags").iterate with
    | some tags =>
      let shown := (tags.map fun tag => py.strip (py.displayed tag)).filter (· ≠ "")
      "form-of" ∈ shown.map py.casefold || (Dict.get sense "form_of").truthy
    | none => false
  | _ => false

def needsDialectalFlag (sense : JsonValue) : Option Bool :=
  (py.senseTags sense).map fun tags => tags.any (· ∈ dialectalTags)

/-- `dict(sense)`, for what is a dictionary. -/
def entriesOf : JsonValue → Dict
  | .obj sense => sense
  | _ => []

/-- The list of flags over `existing`, with the dialectal flag where it is needed. -/
def mergedFlags (existing : JsonValue) (needed : Bool) : List JsonValue :=
  let merged := match existing with
    | .arr items => items
    | .null => []
    | value => [value]
  if needed && !merged.any (·.pyEq (.str "dialectal")) then merged ++ [.str "dialectal"] else merged

def withDialectalFlags (sense : JsonValue) : Option JsonValue := do
  let flagged := entriesOf sense
  let needed ← py.needsDialectalFlag sense
  return .obj (flagged.set "flags" (.arr (mergedFlags (flagged.get "flags") needed)))

def senseId (sense : JsonValue) (index : Nat) (headword : String) : String :=
  let own := match sense with
    | .obj sense => py.textOf (Dict.get sense "sense_id")
    | _ => none
  own.getD ((if headword = "" then "#" else headword ++ "#") ++ toString index)

end PyText

end HamZaboon
