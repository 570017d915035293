import HamZaboon.Cards.Prompt
import HamZaboon.Messages.Spans

/-! # Pronunciations in code

`phonetic_lines` escapes a pronunciation for a code span and wraps it;
`_phonetic_code_spans` unwraps the line and takes the escapes out again, so that the
renderer can put them in.  The two are inverse on every text (`unescapeCode_escape`):
an escape is read from the left, and the escaped text has one before every backtick and
every backslash.
-/

namespace HamZaboon

/-- `re.sub` of an escape by what it stands before. -/
def unescapeCode : List Char → List Char
  | [] => []
  | [c] => [c]
  | c :: d :: text =>
      if c = '\\' ∧ d ∈ "`\\".toList then d :: unescapeCode text else c :: unescapeCode (d :: text)

/-- A line of `_phonetic_code_spans`. -/
def phoneticCodeSpan (line : String) : Span :=
  let chars := line.toList
  if 2 ≤ chars.length ∧ chars.head? = some backtick ∧ chars.getLast? = some backtick then
    .code (String.ofList (unescapeCode (chars.drop 1).dropLast))
  else .plain line

def phoneticCodeSpans (lines : List String) : List Span := lines.map phoneticCodeSpan

/-! ## Taking the escapes out -/

theorem unescapeCode_cons {c : Char} (hc : c ≠ '\\') (text : List Char) :
    unescapeCode (c :: text) = c :: unescapeCode text := by
  cases text with
  | nil => rfl
  | cons d text => rw [unescapeCode, if_neg fun h => hc h.1]

theorem unescapeCode_escape (chars : List Char) :
    unescapeCode (chars.flatMap fun c => if c ∈ "`\\".toList then ['\\', c] else [c]) = chars := by
  induction chars with
  | nil => rfl
  | cons c chars ih =>
    rw [List.flatMap_cons]
    by_cases hc : c ∈ "`\\".toList
    · rw [if_pos hc, List.cons_append, List.cons_append, List.nil_append, unescapeCode,
        if_pos ⟨rfl, hc⟩, ih]
    · have hne : c ≠ '\\' := by
        rintro rfl
        exact hc (by decide)
      rw [if_neg hc, List.singleton_append, unescapeCode_cons hne, ih]

theorem phoneticCodeSpan_wrapped (t : String) :
    phoneticCodeSpan ("`" ++ escapeMdv2Code t ++ "`") = .code t := by
  have hchars : ("`" ++ escapeMdv2Code t ++ "`").toList =
      backtick :: ((escapeMdv2Code t).toList ++ [backtick]) := by
    rw [String.toList_append, String.toList_append]
    rfl
  have hinner : (("`" ++ escapeMdv2Code t ++ "`").toList.drop 1).dropLast =
      (escapeMdv2Code t).toList := by
    rw [hchars, List.drop_one, List.tail_cons, List.dropLast_concat]
  have hwrapped : 2 ≤ ("`" ++ escapeMdv2Code t ++ "`").toList.length ∧
      ("`" ++ escapeMdv2Code t ++ "`").toList.head? = some backtick ∧
        ("`" ++ escapeMdv2Code t ++ "`").toList.getLast? = some backtick := by
    rw [hchars, List.length_cons, List.length_append, List.length_singleton]
    refine ⟨by omega, rfl, ?_⟩
    rw [← List.cons_append, List.getLast?_concat]
  unfold phoneticCodeSpan
  simp only [hinner]
  rw [if_pos hwrapped, escapeMdv2Code, String.toList_ofList, unescapeCode_escape, String.ofList_toList]

/-! ## The spans of a record -/

/-- **Pronunciations.**  The record of a pronunciation becomes one code span with the
pronunciation itself, or nothing where it is empty; and the renderer escapes it once. -/
theorem phonetic_round_trip (α : Alphabet) (t : String) :
    phoneticCodeSpans (phoneticLines α (.ipa t)) = (if t = "" then [] else [.code t]) ∧
      renderMdv2 (phoneticCodeSpans (phoneticLines α (.ipa t))) =
        some (if t = "" then "" else "`" ++ escapeMdv2Code t ++ "`") := by
  by_cases ht : t = ""
  · subst ht
    exact ⟨rfl, rfl⟩
  · have hlines : phoneticLines α (.ipa t) = ["`" ++ escapeMdv2Code t ++ "`"] := if_neg ht
    have hspans : phoneticCodeSpans (phoneticLines α (.ipa t)) = [.code t] := by
      rw [hlines, phoneticCodeSpans, List.map_singleton, phoneticCodeSpan_wrapped]
    refine ⟨by rw [if_neg ht, hspans], ?_⟩
    rw [hspans, if_neg ht]
    simp [renderMdv2, Span.renderMdv2]

end HamZaboon
