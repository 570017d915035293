import HamZaboon.Cards.Text
import HamZaboon.Library.Json
import HamZaboon.Library.Trim
import Mathlib.Tactic.IntervalCases

/-! # Texts as Python reads them

The parts of `str` and `re` that depend on Unicode tables, over tables that are
a parameter: no result depends on which characters are spaces or how they fold.
-/

namespace HamZaboon
open Library

/-- What `normalize_word` takes from Python's Unicode tables. -/
structure UnicodeLib where
  /-- `unicodedata.normalize("NFC", s)`. -/
  nfc : String → String
  casefold : String → String
  isSpace : Char → Bool

def UnicodeLib.ascii : UnicodeLib where
  nfc := id
  casefold s := String.ofList (s.toList.map Char.toLower)
  isSpace := Char.isWhitespace

theorem toLower_facts (c : Char) :
    c.toLower.toLower = c.toLower ∧ c.toLower.isWhitespace = c.isWhitespace := by
  by_cases h : c.val ≥ 'A'.val ∧ c.val ≤ 'Z'.val
  · obtain ⟨n, hle, hge, rfl⟩ : ∃ n, 65 ≤ n ∧ n ≤ 90 ∧ c = Char.ofNat n :=
      ⟨c.toNat, h.1, h.2, by simp⟩
    clear h
    interval_cases n <;> decide
  · have hsame : c.toLower = c := by
      unfold Char.toLower
      rw [dif_neg h]
    simp [hsame]

/-- `" ".join(s.split())`. -/
def UnicodeLib.collapse (lib : UnicodeLib) (s : String) : String :=
  " ".intercalate (((s.toList.splitOnP lib.isSpace).filter (· ≠ [])).map String.ofList)

def UnicodeLib.normalizeWord (lib : UnicodeLib) (word : String) : String :=
  lib.casefold (lib.collapse (lib.nfc word))

def UnicodeLib.strip (lib : UnicodeLib) (s : String) : String :=
  String.ofList (trim lib.isSpace s.toList)

/-- The tables the card and sense checks use besides. -/
structure PyText extends UnicodeLib where
  /-- `\w`. -/
  isWord : Char → Bool
  /-- Equality under `re.IGNORECASE`. -/
  sameCase : Char → Char → Bool
  /-- Where `str.splitlines` splits. -/
  isLineEnd : Char → Bool
  /-- `str` of a decoded list or object. -/
  display : JsonValue → String

def PyText.ascii : PyText where
  toUnicodeLib := .ascii
  isWord := Alphabet.ascii.isWord
  sameCase := Alphabet.ascii.sameCase
  isLineEnd c := c = '\n' || c = '\r'
  display _ := ""

namespace UnicodeLib
variable (lib : UnicodeLib)

@[simp] theorem strip_strip (s : String) : lib.strip (lib.strip s) = lib.strip s := by
  simp [strip]

end UnicodeLib

end HamZaboon
