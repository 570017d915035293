import HamZaboon.Precard.Glosses
import Mathlib.Data.List.Infix
import Mathlib.Data.Rat.Defs

/-! # Which examples a card may show

`enrich.py`: an example is accepted when it has the headword, is as long as its level asks
for and has no odd characters.  The gates of the cloze are softer: an accepted example that
fails one is only put behind the others.
-/

namespace HamZaboon
open Library

/-! ## Tokens -/

/-- `re.findall` of the runs of a class of characters. -/
def runsOf (p : Char → Bool) (s : List Char) : List (List Char) :=
  (s.splitOnP fun c => !p c).filter (· ≠ [])

/-- The matches of `_ALPHA_TOKEN_RX`. -/
def alphaTokens (s : List Char) : List (List Char) := runsOf Char.isAlpha s

/-- `str.lower` of a token. -/
def lowerToken (token : List Char) : List Char := token.map Char.toLower

/-- Where a scan for words stands. -/
inductive WordScan
  | outside
  | inWord
  /-- Behind the apostrophe of a word. -/
  | inEnding

/-- The matches of `[A-Za-z]+(?:'[A-Za-z]+)?`. -/
def countWords : WordScan → List Char → Nat
  | _, [] => 0
  | .outside, c :: s => if c.isAlpha then countWords .inWord s + 1 else countWords .outside s
  | .inWord, c :: s =>
    if c.isAlpha then countWords .inWord s
    else if c = '\'' ∧ s.head?.any Char.isAlpha then countWords .inEnding s
    else countWords .outside s
  | .inEnding, c :: s => if c.isAlpha then countWords .inEnding s else countWords .outside s

def enWordCount (text : String) : Nat := countWords .outside text.toList

/-! ## Stems -/

def prefixLen : List Char → List Char → Nat
  | a :: s, b :: t => if a = b then prefixLen s t + 1 else 0
  | _, _ => 0

/-- A token ends with `s`, and not with `ss`. -/
def endsPlural (t : List Char) : Bool := ['s'] <:+ t && !(['s', 's'] <:+ t : Bool)

/-- `_vars`. -/
def stemVars (t : List Char) : List (List Char) :=
  if 5 < t.length && endsPlural t then [t, t.dropLast] else [t]

def stemMatch5 (a b : List Char) : Bool :=
  a = b || (stemVars a).any fun va => (stemVars b).any fun vb =>
    5 ≤ va.length && 5 ≤ vb.length &&
      max 5 ((min va.length vb.length + 1) / 2) ≤ prefixLen va vb

def singularShort (t : List Char) : List Char :=
  if 3 < t.length && endsPlural t then t.dropLast else t

def shortStemMatch3 (a b : List Char) : Bool :=
  if 5 ≤ min a.length b.length then false
  else if a.length < 3 || b.length < 3 then false
  else if a = b then true
  else if singularShort a = b || a = singularShort b then true
  else (if 4 ≤ min a.length b.length then 4 else 3) ≤ prefixLen a b

section Acceptance
variable (py : GlossText)

def headwordLeakTokens (text kind : String) : List (List Char) :=
  let lowered := (py.lower (py.strip text)).toList
  if kind = "phrase" then
    (runsOf (fun c => c.isLower || c = '\'') lowered).filter (3 ≤ ·.length)
  else if lowered = [] then [] else [lowered]

/-! ## Acceptance -/

def typographicOk : List Char :=
  ['\u2018', '\u2019', '\u201c', '\u201d', '\u2013', '\u2014', '\u2026']

def weirdUrlMarkers : List String := ["http://", "https://", "www.", "@", "://"]

/-- The class of `_WEIRD_CHAR_RX`. -/
def weirdChars : List Char := "@#$%^*_=+|\\/<>\x7b\x7d[]~\x60".toList

def exampleHasWeirdChars (text : String) : Bool :=
  weirdUrlMarkers.any (fun marker => marker.toList <:+: text.toList) ||
    text.toList.any (· ∈ weirdChars) ||
    text.toList.any fun c =>
      (c.toNat < 32 && c ≠ '\t') || c.toNat = 127 ||
        (126 < c.toNat && c ∉ typographicOk && c ≠ ' ' && !c.isAlphanum)

def exampleHasHeadword (text headword kind : String) : Bool :=
  let heads := (headwordLeakTokens py headword kind).flatMap fun raw =>
    ((alphaTokens raw).filter (2 ≤ ·.length)).map lowerToken
  (alphaTokens text.toList).any fun token => heads.any fun head =>
    stemMatch5 (lowerToken token) head || shortStemMatch3 (lowerToken token) head

/-- `Q3_LEVEL_BANDS`. -/
def levelBands : List (String × Nat × Nat) := [("A", 3, 10), ("B", 7, 15), ("C", 10, 18)]

def exampleLevelBand (poolLevel : String) : Nat × Nat :=
  let letter := py.upper (String.ofList ((py.strip poolLevel).toList.take 1))
  (levelBands.lookup letter).getD (3, 18)

def exampleAccepted (text headword kind poolLevel : String) : Bool :=
  py.strip text ≠ "" && !exampleHasWeirdChars text && exampleHasHeadword py text headword kind &&
    (exampleLevelBand py poolLevel).1 ≤ enWordCount text &&
    enWordCount text ≤ (exampleLevelBand py poolLevel).2

/-! ## The gates of the cloze -/

/-- The words of `_ARCHAIC_RX`. -/
def archaicWords : List String :=
  ["thou", "thee", "thy", "thine", "ye", "doth", "dost", "hath", "hast", "wilt", "art", "canst",
    "shallt", "whither", "thither", "hither", "whence", "thence", "nay", "ere", "oft", "unto",
    "wherefore"]

def clozeArchaicOk (text : String) : Bool := !hasWholeWord py.toPyText archaicWords text

def dialogueChars : List Char := ['"', '\u201c', '\u201d', '\u00ab']

def dialogueSubstrings : List String := ["!!", "!?", "..."]

/-- What ends a sentence. -/
def isStop (c : Char) : Bool := c ∈ ['.', '!', '?', '\u2026']

/-- `_SENT_SPLIT_RX.split`, behind the start of a sentence, the stops that may end it, or
the spaces between two. -/
def splitSentences (sentence stops : List Char) (between : Bool) : List Char → List (List Char)
  | [] => [sentence ++ stops]
  | c :: s =>
    if isStop c then splitSentences sentence (stops ++ [c]) false s
    else if !py.isSpace c then splitSentences (sentence ++ stops ++ [c]) [] false s
    else if between then splitSentences sentence stops true s
    else if stops = [] then splitSentences (sentence ++ [c]) [] false s
    else sentence :: splitSentences [] [] true s

/-- `_CAP_WORD_RX` of a token. -/
def isCapWord : List Char → Bool
  | [] => false
  | c :: s => c.isUpper && s ≠ [] && s.all Char.isLower

/-- The capitalized words of a sentence, but for its first word and `I`. -/
def midCapitals (sentence : List Char) : List (List Char) :=
  (alphaTokens sentence).tail.filter fun token => token ≠ ['I'] && isCapWord token

def clozeDialogueOk (text : String) : Bool :=
  !text.toList.any (· ∈ dialogueChars) && text.toList.count '!' ≤ 1 &&
    !dialogueSubstrings.any (fun sub => sub.toList <:+: text.toList) &&
    ((splitSentences py [] [] false (py.strip text).toList).flatMap midCapitals).length ≤ 1

def clozeZipfFloors : List (String × ℚ) :=
  [("A1", 7 / 2), ("A2", 7 / 2), ("B1", 3), ("B2", 5 / 2), ("C1", 5 / 2), ("C2", 5 / 2)]

def clozeZipfFloor (poolLevel : String) : ℚ :=
  (clozeZipfFloors.lookup (py.upper (py.strip poolLevel))).getD 3

variable (zipf : String → Option ℚ)

/-- `cloze_zipf_ok`, with the frequencies of words as they are known. -/
def clozeZipfOk (text headword kind poolLevel : String) : Bool :=
  let heads := (headwordLeakTokens py headword kind).filter (· ≠ [])
  (alphaTokens text.toList).all fun token =>
    token.length < 3 || heads.any (stemMatch5 (lowerToken token)) ||
      (zipf (String.ofList (lowerToken token))).all (clozeZipfFloor py poolLevel ≤ ·)

def coherenceStopwords : List String :=
  ["the", "a", "an", "of", "to", "in", "on", "for", "with", "and", "or", "is", "are", "was",
    "were", "be", "been", "by", "from", "as", "at", "that", "this", "it", "its"]

def clozeDensityOk (text : String) : Bool :=
  let tokens := (alphaTokens text.toList).map lowerToken
  let content := tokens.filter fun t => 4 ≤ t.length && String.ofList t ∉ coherenceStopwords
  3 ≤ content.length && 2 * tokens.length ≤ 5 * content.length

/-- The verdict of `cloze_check_example`: the gate that fails first. -/
def clozeCheckExample (text headword kind poolLevel : String) : Option String :=
  if !clozeArchaicOk py text then some "cloze-archaic"
  else if !clozeDialogueOk py text then some "cloze-dialogue"
  else if !clozeZipfOk py zipf text headword kind poolLevel then some "cloze-zipf"
  else if !clozeDensityOk text then some "cloze-density"
  else none

end Acceptance

end HamZaboon
