import HamZaboon.Library.Results
import Mathlib.Data.List.TakeDrop

/-! # JSON texts

What Python's `json` scanner makes of a text.  The scanner takes the characters
from a position on and gives a value with the characters behind it.  How deep
containers may nest and how long an integer may be are limits of the interpreter.

The loops over the items of an array and the entries of an object count the
characters left; the count never ends one (`scanItems_congr`,
`scanEntries_congr`).
-/

namespace HamZaboon.Library

/-- A scanned value.  A text is its code points, since an escape may name half of
a surrogate pair; a number that is no integer is kept as it is written, and so
are `NaN` and the infinities. -/
inductive JsonTree
  | null
  | bool (value : Bool)
  | int (value : Int)
  | float (literal : List Char)
  | str (points : List Nat)
  | arr (items : List JsonTree)
  | obj (entries : List (List Nat × JsonTree))

/-- Texts are compared by their points. -/
instance lawfulPoints : LawfulBEq (List Nat) := List.instLawfulBEq

/-- A `ValueError`, or a `RecursionError`. -/
inductive ScanError
  | invalid
  | tooDeep
  deriving DecidableEq, Repr

structure ScanLimits where
  depth : Nat
  digits : Nat

def points (s : String) : List Nat := s.toList.map Char.toNat

/-! ## Spaces, texts and numbers -/

def isJsonSpace (c : Char) : Bool := c = ' ' || c = '\t' || c = '\n' || c = '\r'

def skipSpace (s : List Char) : List Char := s.dropWhile isJsonSpace

def isJsonDigit (c : Char) : Bool := '0' ≤ c && c ≤ '9'

def hexDigit (c : Char) : Option Nat :=
  if '0' ≤ c && c ≤ '9' then some (c.toNat - '0'.toNat)
  else if 'a' ≤ c && c ≤ 'f' then some (c.toNat - 'a'.toNat + 10)
  else if 'A' ≤ c && c ≤ 'F' then some (c.toNat - 'A'.toNat + 10)
  else none

/-- The code point of `\uXXXX`. -/
def hexPoint (a b c d : Char) : Option Nat := do
  return (((← hexDigit a) * 16 + (← hexDigit b)) * 16 + (← hexDigit c)) * 16 + (← hexDigit d)

def letterEscape : Char → Option Nat
  | '"' => some 34
  | '\\' => some 92
  | '/' => some 47
  | 'b' => some 8
  | 'f' => some 12
  | 'n' => some 10
  | 'r' => some 13
  | 't' => some 9
  | _ => none

/-- The code points of a text up to its closing quote, each with whether it comes
from a `\u` escape. -/
def scanUnits : List Char → Option (List (Nat × Bool) × List Char)
  | [] => none
  | '"' :: s => some ([], s)
  | '\\' :: 'u' :: a :: b :: c :: d :: s => do
    let point ← hexPoint a b c d
    let (units, rest) ← scanUnits s
    return ((point, true) :: units, rest)
  | '\\' :: e :: s => do
    let point ← letterEscape e
    let (units, rest) ← scanUnits s
    return ((point, false) :: units, rest)
  | c :: s =>
    if c = '\\' || c.toNat < 32 then none
    else do
      let (units, rest) ← scanUnits s
      return ((c.toNat, false) :: units, rest)

/-- An escape before the others: the two halves of a surrogate pair are one point. -/
def joinSurrogate (unit : Nat × Bool) (rest : List (Nat × Bool)) : List (Nat × Bool) :=
  match rest with
  | (low, true) :: tail =>
    if unit.2 && 0xD800 ≤ unit.1 && unit.1 < 0xDC00 && 0xDC00 ≤ low && low < 0xE000 then
      (0x10000 + (unit.1 - 0xD800) * 0x400 + (low - 0xDC00), false) :: tail
    else unit :: rest
  | _ => unit :: rest

/-- A text, from behind its opening quote on. -/
def scanText (s : List Char) : Except ScanError (List Nat × List Char) :=
  match scanUnits s with
  | none => .error .invalid
  | some (units, rest) => .ok ((units.foldr joinSurrogate []).map (·.1), rest)

/-- The fraction of a number, which has a digit. -/
def scanFraction (s : List Char) : List Char × List Char :=
  match s with
  | '.' :: s =>
    match s.span isJsonDigit with
    | ([], _) => ([], '.' :: s)
    | (digits, rest) => ('.' :: digits, rest)
  | s => ([], s)

def scanSign : List Char → List Char × List Char
  | '+' :: s => (['+'], s)
  | '-' :: s => (['-'], s)
  | s => ([], s)

/-- The exponent of a number, which has a digit. -/
def scanExponent (s : List Char) : List Char × List Char :=
  match s with
  | c :: t =>
    if c = 'e' || c = 'E' then
      let (sign, t) := scanSign t
      match t.span isJsonDigit with
      | ([], _) => ([], s)
      | (digits, rest) => (c :: sign ++ digits, rest)
    else ([], s)
  | [] => ([], [])

/-- The integer part: a zero, or digits without a leading one. -/
def scanDigits (s : List Char) : Option (List Char × List Char) :=
  match s with
  | '0' :: s => some (['0'], s)
  | c :: t =>
    if isJsonDigit c then some (c :: (t.span isJsonDigit).1, (t.span isJsonDigit).2) else none
  | [] => none

def digitsValue (digits : List Char) : Nat :=
  digits.foldl (fun n c => n * 10 + (c.toNat - '0'.toNat)) 0

/-- A number without its sign. -/
def scanNumber (limits : ScanLimits) (negative : Bool) (s : List Char) :
    Except ScanError (JsonTree × List Char) :=
  match scanDigits s with
  | none => .error .invalid
  | some (digits, s) =>
    let (fraction, s) := scanFraction s
    let (exponent, s) := scanExponent s
    if fraction = [] ∧ exponent = [] then
      if limits.digits < digits.length then .error .invalid
      else .ok (.int (if negative then -digitsValue digits else digitsValue digits), s)
    else .ok (.float ((if negative then ['-'] else []) ++ digits ++ fraction ++ exponent), s)

/-! ## Values -/

section Containers
variable (scan : List Char → Except ScanError (JsonTree × List Char))

/-- The items of an array from the first or a later one on, with its bracket. -/
def scanItems : Nat → List Char → Except ScanError (List JsonTree × List Char)
  | 0, _ => .error .invalid
  | n + 1, s => do
    let (item, s) ← scan s
    match skipSpace s with
    | ']' :: s => return ([item], s)
    | ',' :: s =>
      let (items, s) ← scanItems n (skipSpace s)
      return (item :: items, s)
    | _ => .error .invalid

/-- An array, from behind its bracket on. -/
def scanArray (s : List Char) : Except ScanError (JsonTree × List Char) :=
  match skipSpace s with
  | ']' :: s => .ok (.arr [], s)
  | s => do
    let (items, s) ← scanItems scan (s.length + 1) s
    return (.arr items, s)

/-- The entries of an object, with its brace. -/
def scanEntries : Nat → List Char → Except ScanError (List (List Nat × JsonTree) × List Char)
  | 0, _ => .error .invalid
  | n + 1, s =>
    match s with
    | '"' :: s => do
      let (key, s) ← scanText s
      match skipSpace s with
      | ':' :: s =>
        let (value, s) ← scan (skipSpace s)
        match skipSpace s with
        | '}' :: s => return ([(key, value)], s)
        | ',' :: s =>
          let (entries, s) ← scanEntries n (skipSpace s)
          return ((key, value) :: entries, s)
        | _ => .error .invalid
      | _ => .error .invalid
    | _ => .error .invalid

/-- `d[key] = value`. -/
def setEntry {κ ν : Type} [DecidableEq κ] (entries : List (κ × ν)) (key : κ) (value : ν) :
    List (κ × ν) :=
  if key ∈ entries.map (·.1) then
    entries.map fun entry => if entry.1 = key then (key, value) else entry
  else entries ++ [(key, value)]

/-- An object, from behind its brace on; of two entries with one key the later
value counts. -/
def scanObject (s : List Char) : Except ScanError (JsonTree × List Char) :=
  match skipSpace s with
  | '}' :: s => .ok (.obj [], s)
  | s => do
    let (entries, s) ← scanEntries scan (s.length + 1) s
    return (.obj (entries.foldl (fun d entry => setEntry d entry.1 entry.2) []), s)

end Containers

/-- A word of the format, or an error. -/
def scanWord (word : List Char) (value : JsonTree) (s : List Char) :
    Except ScanError (JsonTree × List Char) :=
  if word.isPrefixOf s then .ok (value, s.drop word.length) else .error .invalid

/-- `scan_once`, where containers may nest this deep. -/
def scanValue (limits : ScanLimits) : Nat → List Char → Except ScanError (JsonTree × List Char)
  | _, [] => .error .invalid
  | depth, c :: s =>
    match c with
    | '"' => (scanText s).map fun r => (.str r.1, r.2)
    | '{' =>
      match depth with
      | 0 => .error .tooDeep
      | depth + 1 => scanObject (scanValue limits depth) s
    | '[' =>
      match depth with
      | 0 => .error .tooDeep
      | depth + 1 => scanArray (scanValue limits depth) s
    | 'n' => scanWord "null".toList .null (c :: s)
    | 't' => scanWord "true".toList (.bool true) (c :: s)
    | 'f' => scanWord "false".toList (.bool false) (c :: s)
    | 'N' => scanWord "NaN".toList (.float "NaN".toList) (c :: s)
    | 'I' => scanWord "Infinity".toList (.float "Infinity".toList) (c :: s)
    | '-' =>
      if "Infinity".toList.isPrefixOf s then
        .ok (.float "-Infinity".toList, s.drop "Infinity".length)
      else scanNumber limits true s
    | _ => scanNumber limits false (c :: s)

def rawDecode (limits : ScanLimits) (s : List Char) : Except ScanError (JsonTree × List Char) :=
  scanValue limits limits.depth s

/-- `json.loads`: one value with nothing but spaces around it. -/
def jsonLoads (limits : ScanLimits) (text : List Char) : Except ScanError JsonTree :=
  if text.head? = some '\uFEFF' then .error .invalid
  else do
    let (value, rest) ← rawDecode limits (skipSpace text)
    if skipSpace rest = [] then return value else .error .invalid

/-! ## What a scan leaves -/

/-- The scan takes at least one character. -/
def Shrinks {α : Type} (scan : List Char → Except ScanError (α × List Char)) : Prop :=
  ∀ s a rest, scan s = .ok (a, rest) → rest.length < s.length

theorem length_skipSpace (s : List Char) : (skipSpace s).length ≤ s.length :=
  (List.dropWhile_suffix _).length_le

theorem length_scanUnits {s rest : List Char} {units : List (Nat × Bool)}
    (h : scanUnits s = some (units, rest)) : rest.length < s.length := by
  fun_induction scanUnits s generalizing units rest with
  | case1 => cases h
  | case2 s =>
    obtain ⟨-, rfl⟩ := Prod.mk.inj (Option.some.inj h)
    exact Nat.lt_succ_self _
  | case3 a b c d s ih =>
    obtain ⟨point, -, h⟩ := Option.bind_eq_some_iff.mp h
    obtain ⟨⟨units', rest'⟩, hrest, h⟩ := Option.bind_eq_some_iff.mp h
    obtain ⟨-, rfl⟩ := Prod.mk.inj (Option.some.inj h)
    have hlt := ih hrest
    simp only [List.length_cons]
    omega
  | case4 e s _ ih =>
    obtain ⟨point, -, h⟩ := Option.bind_eq_some_iff.mp h
    obtain ⟨⟨units', rest'⟩, hrest, h⟩ := Option.bind_eq_some_iff.mp h
    obtain ⟨-, rfl⟩ := Prod.mk.inj (Option.some.inj h)
    have hlt := ih hrest
    simp only [List.length_cons]
    omega
  | case5 => cases h
  | case6 c s _ _ _ _ ih =>
    obtain ⟨⟨units', rest'⟩, hrest, h⟩ := Option.bind_eq_some_iff.mp h
    obtain ⟨-, rfl⟩ := Prod.mk.inj (Option.some.inj h)
    exact Nat.lt_succ_of_lt (ih hrest)

theorem scanText_shrinks : Shrinks scanText := by
  intro s points rest h
  unfold scanText at h
  split at h
  · cases h
  · rename_i units rest' hunits
    obtain ⟨-, rfl⟩ := Prod.mk.inj (Except.ok.inj h)
    exact length_scanUnits hunits

theorem length_span (s : List Char) : (s.span isJsonDigit).2.length ≤ s.length := by
  rw [List.span_eq_takeWhile_dropWhile]
  exact (List.dropWhile_suffix _).length_le

theorem length_scanFraction (s : List Char) : (scanFraction s).2.length ≤ s.length := by
  unfold scanFraction
  split
  · rename_i s
    have hle := length_span s
    split
    · exact Nat.le_refl _
    · rename_i digits rest _ hspan
      rw [hspan] at hle
      exact Nat.le_succ_of_le hle
  · exact Nat.le_refl _

theorem length_scanSign (s : List Char) : (scanSign s).2.length ≤ s.length := by
  unfold scanSign
  split
  · exact Nat.le_succ _
  · exact Nat.le_succ _
  · exact Nat.le_refl _

theorem length_scanExponent (s : List Char) : (scanExponent s).2.length ≤ s.length := by
  unfold scanExponent
  split
  · rename_i c t
    have hsign := length_scanSign t
    have hle := length_span (scanSign t).2
    by_cases hc : (c = 'e' || c = 'E') = true
    · simp only [if_pos hc]
      split
      · exact Nat.le_refl _
      · rename_i digits rest _ hspan
        rw [hspan] at hle
        exact Nat.le_succ_of_le (Nat.le_trans hle hsign)
    · simp only [if_neg hc]
      exact Nat.le_refl _
  · exact Nat.le_refl _

theorem length_scanDigits {s digits rest : List Char} (h : scanDigits s = some (digits, rest)) :
    rest.length < s.length := by
  unfold scanDigits at h
  split at h
  · obtain ⟨-, rfl⟩ := Prod.mk.inj (Option.some.inj h)
    exact Nat.lt_succ_self _
  · rename_i c t _
    split at h
    · obtain ⟨-, rfl⟩ := Prod.mk.inj (Option.some.inj h)
      exact Nat.lt_succ_of_le (length_span t)
    · cases h
  · cases h

theorem scanNumber_spec {limits : ScanLimits} {negative : Bool} {s rest : List Char}
    {value : JsonTree} (h : scanNumber limits negative s = .ok (value, rest)) :
    rest.length < s.length ∧ ∀ entries, value ≠ .obj entries := by
  unfold scanNumber at h
  split at h
  · cases h
  · rename_i digits s' hdigits
    have hlt := length_scanDigits hdigits
    have hfraction := length_scanFraction s'
    have hexponent := length_scanExponent (scanFraction s').2
    simp only at h
    split at h
    · split at h
      · cases h
      · obtain ⟨rfl, rfl⟩ := Prod.mk.inj (Except.ok.inj h)
        exact ⟨by omega, nofun⟩
    · obtain ⟨rfl, rfl⟩ := Prod.mk.inj (Except.ok.inj h)
      exact ⟨by omega, nofun⟩

section Containers
variable {scan : List Char → Except ScanError (JsonTree × List Char)} (hscan : Shrinks scan)
include hscan

theorem scanItems_shrinks (n : Nat) : Shrinks (scanItems scan n) := by
  induction n with
  | zero => exact nofun
  | succ n ih =>
    intro s items rest h
    obtain ⟨⟨item, s'⟩, hitem, h⟩ := bind_eq_ok.mp h
    have hlt := hscan s item s' hitem
    have hskip := length_skipSpace s'
    simp only at h
    split at h
    · rename_i t heq
      obtain ⟨-, rfl⟩ := Prod.mk.inj (Except.ok.inj h)
      rw [heq, List.length_cons] at hskip
      omega
    · rename_i t heq
      obtain ⟨⟨items', rest'⟩, hitems, h⟩ := bind_eq_ok.mp h
      obtain ⟨-, hback⟩ := Prod.mk.inj (Except.ok.inj h)
      have hsame : rest' = rest := hback
      have hrest : rest'.length < (skipSpace t).length := ih _ _ _ hitems
      have hnext := length_skipSpace t
      rw [heq, List.length_cons] at hskip
      rw [← hsame]
      omega
    · cases h

theorem scanItems_congr {n m : Nat} {s : List Char} (hn : s.length < n) (hm : s.length < m) :
    scanItems scan n s = scanItems scan m s := by
  induction n generalizing m s with
  | zero => exact absurd hn (Nat.not_lt_zero _)
  | succ n ih =>
    cases m with
    | zero => exact absurd hm (Nat.not_lt_zero _)
    | succ m =>
      rw [scanItems, scanItems]
      cases hitem : scan s with
      | error e => rfl
      | ok r =>
        obtain ⟨item, s'⟩ := r
        have hlt := hscan s item s' hitem
        have hskip := length_skipSpace s'
        simp only [bind, Except.bind]
        split
        · rfl
        · rename_i t heq
          have hnext := length_skipSpace t
          rw [heq, List.length_cons] at hskip
          rw [ih (show (skipSpace t).length < n by omega) (show (skipSpace t).length < m by omega)]
        · rfl

theorem scanEntries_shrinks (n : Nat) : Shrinks (scanEntries scan n) := by
  induction n with
  | zero => exact nofun
  | succ n ih =>
    intro s entries rest h
    unfold scanEntries at h
    split at h
    · rename_i s
      obtain ⟨⟨key, s₁⟩, hkey, h⟩ := bind_eq_ok.mp h
      have hlt₁ := scanText_shrinks s key s₁ hkey
      have hskip₁ := length_skipSpace s₁
      simp only at h
      split at h
      · rename_i s₂ heq₂
        rw [heq₂, List.length_cons] at hskip₁
        obtain ⟨⟨value, s₃⟩, hvalue, h⟩ := bind_eq_ok.mp h
        have hlt₃ := hscan _ value s₃ hvalue
        have hskip₂ := length_skipSpace s₂
        have hskip₃ := length_skipSpace s₃
        rw [List.length_cons]
        simp only at h
        split at h
        · rename_i s₄ heq₄
          obtain ⟨-, rfl⟩ := Prod.mk.inj (Except.ok.inj h)
          rw [heq₄, List.length_cons] at hskip₃
          omega
        · rename_i s₄ heq₄
          obtain ⟨⟨entries', rest'⟩, hentries, h⟩ := bind_eq_ok.mp h
          obtain ⟨-, hback⟩ := Prod.mk.inj (Except.ok.inj h)
          have hsame : rest' = rest := hback
          have hrest : rest'.length < (skipSpace s₄).length := ih _ _ _ hentries
          have hskip₄ := length_skipSpace s₄
          rw [heq₄, List.length_cons] at hskip₃
          rw [← hsame]
          omega
        · cases h
      · cases h
    · cases h

theorem scanEntries_congr {n m : Nat} {s : List Char} (hn : s.length < n) (hm : s.length < m) :
    scanEntries scan n s = scanEntries scan m s := by
  induction n generalizing m s with
  | zero => exact absurd hn (Nat.not_lt_zero _)
  | succ n ih =>
    cases m with
    | zero => exact absurd hm (Nat.not_lt_zero _)
    | succ m =>
      unfold scanEntries
      split
      · rename_i s
        rw [List.length_cons] at hn hm
        cases hkey : scanText s with
        | error e => rfl
        | ok r =>
          obtain ⟨key, s₁⟩ := r
          have hlt₁ := scanText_shrinks s key s₁ hkey
          have hskip₁ := length_skipSpace s₁
          simp only [bind, Except.bind]
          split
          · rename_i s₂ heq₂
            rw [heq₂, List.length_cons] at hskip₁
            have hskip₂ := length_skipSpace s₂
            cases hvalue : scan (skipSpace s₂) with
            | error e => rfl
            | ok r =>
              obtain ⟨value, s₃⟩ := r
              have hlt₃ := hscan _ value s₃ hvalue
              have hskip₃ := length_skipSpace s₃
              simp only
              split
              · rfl
              · rename_i s₄ heq₄
                have hskip₄ := length_skipSpace s₄
                rw [heq₄, List.length_cons] at hskip₃
                rw [ih (show (skipSpace s₄).length < n by omega)
                  (show (skipSpace s₄).length < m by omega)]
              · rfl
          · rfl
      · rfl

theorem scanArray_spec {s rest : List Char} {value : JsonTree}
    (h : scanArray scan s = .ok (value, rest)) :
    rest.length < s.length ∧ ∀ entries, value ≠ .obj entries := by
  have hskip := length_skipSpace s
  unfold scanArray at h
  split at h
  · rename_i t heq
    obtain ⟨rfl, rfl⟩ := Prod.mk.inj (Except.ok.inj h)
    rw [heq, List.length_cons] at hskip
    exact ⟨by omega, nofun⟩
  · obtain ⟨⟨items, rest'⟩, hitems, h⟩ := bind_eq_ok.mp h
    obtain ⟨hvalue, hback⟩ := Prod.mk.inj (Except.ok.inj h)
    have hsame : rest' = rest := hback
    have hlt : rest'.length < (skipSpace s).length := scanItems_shrinks hscan _ _ _ _ hitems
    rw [← hsame, ← hvalue]
    exact ⟨by omega, nofun⟩

theorem scanObject_shrinks : Shrinks (scanObject scan) := by
  intro s value rest h
  have hskip := length_skipSpace s
  unfold scanObject at h
  split at h
  · rename_i t heq
    obtain ⟨-, rfl⟩ := Prod.mk.inj (Except.ok.inj h)
    rw [heq, List.length_cons] at hskip
    omega
  · obtain ⟨⟨entries, rest'⟩, hentries, h⟩ := bind_eq_ok.mp h
    obtain ⟨-, hback⟩ := Prod.mk.inj (Except.ok.inj h)
    have hsame : rest' = rest := hback
    have hlt : rest'.length < (skipSpace s).length := scanEntries_shrinks hscan _ _ _ _ hentries
    rw [← hsame]
    omega

end Containers

theorem scanWord_spec {word : List Char} {value v : JsonTree} {s rest : List Char}
    (h : scanWord word value s = .ok (v, rest)) (hword : word ≠ []) :
    rest.length < s.length ∧ v = value := by
  unfold scanWord at h
  split at h
  · rename_i hpre
    obtain ⟨rfl, rfl⟩ := Prod.mk.inj (Except.ok.inj h)
    have hpos := List.length_pos_of_ne_nil hword
    have hle := (List.isPrefixOf_iff_prefix.mp hpre).length_le
    rw [List.length_drop]
    exact ⟨by omega, rfl⟩
  · cases h

theorem scanValue_spec {limits : ScanLimits} {depth : Nat} {s rest : List Char} {value : JsonTree}
    (h : scanValue limits depth s = .ok (value, rest)) :
    rest.length < s.length ∧ ∀ entries, value = .obj entries → s.head? = some '{' := by
  induction depth using Nat.strongRecOn generalizing s value rest with
  | ind depth ih =>
    have hinner : ∀ d < depth, Shrinks (scanValue limits d) := fun d hd _ _ _ hd' => (ih d hd hd').1
    have hword : ∀ {word v t}, scanWord word v t = .ok (value, rest) → word ≠ [] →
        (∀ entries, v ≠ JsonTree.obj entries) →
        rest.length < t.length ∧ ∀ entries, value = .obj entries → t.head? = some '{' := by
      intro word v t hscan hne hv
      obtain ⟨hlt, rfl⟩ := scanWord_spec hscan hne
      exact ⟨hlt, fun entries heq => absurd heq (hv entries)⟩
    cases s with
    | nil => cases depth <;> cases h
    | cons c s =>
      unfold scanValue at h
      split at h
      · cases htext : scanText s with
        | error e =>
          rw [htext] at h
          cases h
        | ok r =>
          rw [htext] at h
          obtain ⟨rfl, rfl⟩ := Prod.mk.inj (Except.ok.inj h)
          exact ⟨Nat.lt_succ_of_lt (scanText_shrinks s r.1 r.2 htext), nofun⟩
      · split at h
        · cases h
        · rename_i depth
          have hlt := scanObject_shrinks (hinner depth (Nat.lt_succ_self depth)) s value rest h
          exact ⟨Nat.lt_succ_of_lt hlt, fun _ _ => rfl⟩
      · split at h
        · cases h
        · rename_i depth
          obtain ⟨hlt, hobj⟩ := scanArray_spec (hinner depth (Nat.lt_succ_self depth)) h
          exact ⟨Nat.lt_succ_of_lt hlt, fun entries heq => absurd heq (hobj entries)⟩
      · exact hword h (by decide) nofun
      · exact hword h (by decide) nofun
      · exact hword h (by decide) nofun
      · exact hword h (by decide) nofun
      · exact hword h (by decide) nofun
      · split at h
        · obtain ⟨rfl, rfl⟩ := Prod.mk.inj (Except.ok.inj h)
          rw [List.length_drop, List.length_cons]
          exact ⟨by omega, nofun⟩
        · obtain ⟨hlt, hobj⟩ := scanNumber_spec h
          exact ⟨Nat.lt_succ_of_lt hlt, fun entries heq => absurd heq (hobj entries)⟩
      · obtain ⟨hlt, hobj⟩ := scanNumber_spec h
        exact ⟨hlt, fun entries heq => absurd heq (hobj entries)⟩

theorem head_of_rawDecode {limits : ScanLimits} {s rest : List Char}
    {entries : List (List Nat × JsonTree)} (h : rawDecode limits s = .ok (.obj entries, rest)) :
    s.head? = some '{' :=
  (scanValue_spec h).2 entries rfl

theorem rawDecode_of_loads {limits : ScanLimits} {text : List Char} {value : JsonTree}
    (h : jsonLoads limits text = .ok value) :
    ∃ rest, rawDecode limits (skipSpace text) = .ok (value, rest) := by
  unfold jsonLoads at h
  split at h
  · cases h
  · obtain ⟨⟨value', rest⟩, hraw, h⟩ := bind_eq_ok.mp h
    simp only at h
    split at h
    · obtain rfl : value' = value := Except.ok.inj h
      exact ⟨rest, hraw⟩
    · cases h

end HamZaboon.Library
