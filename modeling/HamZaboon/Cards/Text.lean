import HamZaboon.Cards.Card

/-! # Learner-facing text

The leaves every rendering is made of: MarkdownV2 escaping, Persian digits, and
the search for an answer word in a text (`_example_has_word`, `_blank_word`).
What the regular expression engine knows about characters is an `Alphabet`; no
result depends on which one it is.
-/

namespace HamZaboon

/-- The character tables of Python's `re` and `str`. -/
structure Alphabet where
  /-- `\w`. -/
  isWord : Char → Bool
  /-- Equality under `re.IGNORECASE`. -/
  sameCase : Char → Char → Bool
  /-- What `str.strip` removes. -/
  isSpace : Char → Bool

def Alphabet.ascii : Alphabet where
  isWord c := c.isAlphanum || c = '_'
  sameCase a b := a.toLower = b.toLower
  isSpace := Char.isWhitespace

/-- The characters `escape_mdv2` puts a backslash before. -/
def mdv2Special : List Char := "_*[]()~`>#+-=|\x7b\x7d.!".toList

def escapeMdv2 (text : String) : String :=
  String.ofList (text.toList.flatMap fun c => if c ∈ mdv2Special then ['\\', c] else [c])

def escapeMdv2Code (text : String) : String :=
  String.ofList (text.toList.flatMap fun c => if c ∈ "`\\".toList then ['\\', c] else [c])

/-- `_PERSIAN_DIGITS`. -/
def persianDigit (c : Char) : Char :=
  if '0' ≤ c ∧ c ≤ '9' then Char.ofNat (c.toNat - 48 + 1776) else c

def toPersianDigits (value : Int) : String :=
  String.ofList ((toString value).toList.map persianDigit)

/-! ## The answer word in a text -/

namespace Alphabet
variable (α : Alphabet)

/-- What follows the word at the head of the text, when the word is there. -/
def stripWord : List Char → List Char → Option (List Char)
  | [], text => some text
  | _ :: _, [] => none
  | w :: word, c :: text => if α.sameCase w c then stripWord word text else none

/-- `(?<!\w)word(?!\w)` matches at the head of the text; `prev` is the character
before it. -/
def wordAt (word : List Char) (prev : Option Char) (text : List Char) : Bool :=
  !prev.any α.isWord && (α.stripWord word text).any (fun rest => !rest.head?.any α.isWord)

/-- `re.search`. -/
def searchWord (word : List Char) (prev : Option Char) : List Char → Bool
  | [] => α.wordAt word prev []
  | c :: text => α.wordAt word prev (c :: text) || searchWord word (some c) text

def exampleHasWord (text word : String) : Bool :=
  text ≠ "" && word ≠ "" && α.searchWord word.toList none text.toList

/-- `re.sub` of the word by the hidden token, from left to right.  `skip`
characters still belong to the last match; `left` bounds the matches to come. -/
def blankFrom (word : List Char) (skip : Nat) (left : Option Nat) (prev : Option Char) :
    List Char → List Char
  | [] => []
  | c :: text =>
      match skip with
      | skip + 1 => blankFrom word skip left (some c) text
      | 0 =>
          if left ≠ some 0 ∧ α.wordAt word prev (c :: text) then
            "? ? ?".toList ++
              blankFrom word (word.length - 1) (left.map (· - 1)) (some c) text
          else c :: blankFrom word 0 left (some c) text

/-- `_blank_word`; a `count` of `0` replaces every occurrence. -/
def blankWord (text word : String) (count : Nat) : String :=
  if text = "" ∨ word = "" then text
  else
    String.ofList
      (α.blankFrom word.toList 0 (if count = 0 then none else some count) none text.toList)

def strip (text : String) : String :=
  String.ofList
    ((text.toList.dropWhile α.isSpace).reverse.dropWhile α.isSpace).reverse

end Alphabet

end HamZaboon
