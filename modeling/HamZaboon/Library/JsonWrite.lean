import HamZaboon.Library.JsonExtend
import Mathlib.Data.List.TakeWhile

/-! # Writing JSON

What Python's `json.dumps(value, ensure_ascii=False)` writes, in the layout with
spaces and in the one with line breaks, and the round trip (`loads_dump`): a value
that the writer can write within the limits (`fits`) is read back as it was.

The text has no control character but the line breaks of its layout
(`not_control_of_mem_dump`); every other character of a text stands as it is.
-/

namespace HamZaboon.Library

/-- The spaces between the items: behind a comma, and behind a bracket at a depth. -/
structure Layout where
  gap : List Char
  pad : Nat → List Char
  gap_spaces : ∀ c ∈ gap, isJsonSpace c = true
  pad_spaces : ∀ depth, ∀ c ∈ pad depth, isJsonSpace c = true

def Layout.line : Layout where
  gap := [' ']
  pad _ := []
  gap_spaces := List.all_eq_true.mp (by decide)
  pad_spaces := by simp

/-- `indent=1`. -/
def Layout.indented : Layout where
  gap := []
  pad depth := '\n' :: List.replicate depth ' '
  gap_spaces := by simp
  pad_spaces := by
    intro depth c hc
    rcases List.mem_cons.mp hc with rfl | hc
    · decide
    · rw [(List.mem_replicate.mp hc).2]
      decide

/-! ## The writer -/

/-- A digit of `%04x`. -/
def hexChar (n : Nat) : Char := Nat.digitChar n

/-- `ESCAPE_DCT`, and the character itself where nothing is escaped. -/
def escapePoint (n : Nat) : List Char :=
  if n = 34 then ['\\', '"']
  else if n = 92 then ['\\', '\\']
  else if n = 10 then ['\\', 'n']
  else if n = 13 then ['\\', 'r']
  else if n = 9 then ['\\', 't']
  else if n = 12 then ['\\', 'f']
  else if n = 8 then ['\\', 'b']
  else if n < 32 then ['\\', 'u', '0', '0', hexChar (n / 16), hexChar (n % 16)]
  else [Char.ofNat n]

def dumpText (text : List Nat) : List Char := '"' :: text.flatMap escapePoint ++ ['"']

/-- `int.__repr__`. -/
def dumpInt (n : Int) : List Char :=
  (if n < 0 then ['-'] else []) ++ Nat.toDigits 10 n.natAbs

section Dump
variable (layout : Layout)

mutual

def dump (depth : Nat) : JsonTree → List Char
  | .null => "null".toList
  | .bool true => "true".toList
  | .bool false => "false".toList
  | .int n => dumpInt n
  | .float literal => literal
  | .str text => dumpText text
  | .arr [] => "[]".toList
  | .arr (item :: items) =>
    '[' :: layout.pad (depth + 1) ++ dump (depth + 1) item ++ dumpItems depth items
  | .obj [] => ['\x7b', '\x7d']
  | .obj ((key, value) :: entries) =>
    '{' :: layout.pad (depth + 1) ++ dumpText key ++ [':', ' '] ++ dump (depth + 1) value ++
      dumpEntries depth entries

/-- The further items, each behind its comma, with the bracket. -/
def dumpItems (depth : Nat) : List JsonTree → List Char
  | [] => layout.pad depth ++ [']']
  | item :: items =>
    ',' :: layout.gap ++ layout.pad (depth + 1) ++ dump (depth + 1) item ++ dumpItems depth items

/-- The further entries, each behind its comma, with the brace. -/
def dumpEntries (depth : Nat) : List (List Nat × JsonTree) → List Char
  | [] => layout.pad depth ++ ['}']
  | (key, value) :: entries =>
    ',' :: layout.gap ++ layout.pad (depth + 1) ++ dumpText key ++ [':', ' '] ++
      dump (depth + 1) value ++ dumpEntries depth entries

end

end Dump

/-! ## What can be written -/

/-- No half of a surrogate pair. -/
def isText (text : List Nat) : Bool := text.all fun n => decide n.isValidChar

/-- A printable ASCII character. -/
def isPlain (c : Char) : Bool := 32 ≤ c.toNat && c.toNat < 127

/-- What `float.__repr__` writes: a literal that is read as the float it is. -/
def isFloatLiteral (literal : List Char) : Bool :=
  literal.all isPlain &&
    match scanValue ⟨0, 0⟩ 0 literal with
    | .ok (.float read, []) => read = literal
    | _ => false

section Fits
variable (limits : ScanLimits)

mutual

/-- A value that can be written, and read within the limits: its containers nest no
deeper, its integers are no longer, its keys are distinct and its texts have no
half of a surrogate pair. -/
def fits : Nat → JsonTree → Bool
  | _, .null => true
  | _, .bool _ => true
  | _, .int n => (Nat.toDigits 10 n.natAbs).length ≤ limits.digits
  | _, .float literal => isFloatLiteral literal
  | _, .str text => isText text
  | depth, .arr items =>
    match depth with
    | 0 => false
    | depth + 1 => fitsItems depth items
  | depth, .obj entries =>
    match depth with
    | 0 => false
    | depth + 1 => decide (entries.map (·.1)).Nodup && fitsEntries depth entries

def fitsItems : Nat → List JsonTree → Bool
  | _, [] => true
  | depth, item :: items => fits depth item && fitsItems depth items

def fitsEntries : Nat → List (List Nat × JsonTree) → Bool
  | _, [] => true
  | depth, (key, value) :: entries => isText key && fits depth value && fitsEntries depth entries

end

end Fits

/-- `json.dumps(value, ensure_ascii=False)` on one line, where the text can be written
to a file. -/
def jsonDumps (limits : ScanLimits) (value : JsonTree) : Option (List Char) :=
  if fits limits limits.depth value then some (dump .line 0 value) else none

/-! ## Texts and integers are read back -/

theorem toNat_ofNat_of_valid {n : Nat} (h : n.isValidChar) : (Char.ofNat n).toNat = n := by
  rw [Char.ofNat, dif_pos h]
  rfl

theorem hexDigit_hexChar : ∀ n < 16, hexDigit (hexChar n) = some n := by decide

theorem scanUnits_escapePoint {n : Nat} (hn : n.isValidChar) (s : List Char) :
    ∃ escaped : Bool, (escaped = true → n < 32) ∧
      scanUnits (escapePoint n ++ s) = (scanUnits s).map fun x => ((n, escaped) :: x.1, x.2) := by
  have hshort : ∀ e, letterEscape e = some n → escapePoint n = ['\\', e] → e ≠ 'u' →
      scanUnits (escapePoint n ++ s) = (scanUnits s).map fun x => ((n, false) :: x.1, x.2) := by
    intro e hletter htext he
    rw [htext]
    show scanUnits ('\\' :: e :: s) = _
    rw [scanUnits.eq_4 _ _ (by simp [he]), hletter]
    cases scanUnits s <;> rfl
  by_cases hshorts : n ∈ [34, 92, 10, 13, 9, 12, 8]
  · refine ⟨false, fun h => absurd h Bool.false_ne_true, ?_⟩
    simp only [List.mem_cons, List.not_mem_nil, or_false] at hshorts
    rcases hshorts with rfl | rfl | rfl | rfl | rfl | rfl | rfl
    · exact hshort '"' rfl rfl (by decide)
    · exact hshort '\\' rfl rfl (by decide)
    · exact hshort 'n' rfl rfl (by decide)
    · exact hshort 'r' rfl rfl (by decide)
    · exact hshort 't' rfl rfl (by decide)
    · exact hshort 'f' rfl rfl (by decide)
    · exact hshort 'b' rfl rfl (by decide)
  · simp only [List.mem_cons, List.not_mem_nil, or_false, not_or] at hshorts
    obtain ⟨h34, h92, h10, h13, h9, h12, h8⟩ := hshorts
    by_cases hcontrol : n < 32
    · refine ⟨true, fun _ => hcontrol, ?_⟩
      have htext : escapePoint n = ['\\', 'u', '0', '0', hexChar (n / 16), hexChar (n % 16)] := by
        simp [escapePoint, h34, h92, h10, h13, h9, h12, h8, hcontrol]
      have hpoint : hexPoint '0' '0' (hexChar (n / 16)) (hexChar (n % 16)) = some n := by
        have hhigh := hexDigit_hexChar (n / 16) (by omega)
        have hlow := hexDigit_hexChar (n % 16) (by omega)
        have hzero : hexDigit '0' = some 0 := rfl
        simp only [hexPoint, hzero, hhigh, hlow, Option.bind_eq_bind, Option.bind_some, pure,
          Option.some.injEq]
        omega
      rw [htext]
      show scanUnits ('\\' :: 'u' :: '0' :: '0' :: hexChar (n / 16) :: hexChar (n % 16) :: s) = _
      rw [scanUnits, hpoint]
      cases scanUnits s <;> rfl
    · refine ⟨false, fun h => absurd h Bool.false_ne_true, ?_⟩
      have htext : escapePoint n = [Char.ofNat n] := by
        simp [escapePoint, h34, h92, h10, h13, h9, h12, h8, hcontrol]
      have hback : (Char.ofNat n).toNat = n := toNat_ofNat_of_valid hn
      have hquote : Char.ofNat n ≠ '"' := by
        intro h
        rw [h] at hback
        exact h34 hback.symm
      have hslash : Char.ofNat n ≠ '\\' := by
        intro h
        rw [h] at hback
        exact h92 hback.symm
      rw [htext]
      show scanUnits (Char.ofNat n :: s) = _
      rw [scanUnits.eq_5 _ _ hquote (by simp [hslash]) (by simp [hslash]),
        if_neg (by simp [hslash, hback, hcontrol]), hback]
      cases scanUnits s <;> rfl

theorem scanUnits_dump {text : List Nat} (h : isText text = true) (rest : List Char) :
    ∃ units, scanUnits (text.flatMap escapePoint ++ '"' :: rest) = some (units, rest) ∧
      units.map (·.1) = text ∧ ∀ u ∈ units, u.2 = true → u.1 < 32 := by
  induction text with
  | nil => exact ⟨[], rfl, rfl, nofun⟩
  | cons n text ih =>
    obtain ⟨hn, htext⟩ := by simpa only [isText, List.all_cons, Bool.and_eq_true] using h
    obtain ⟨units, hunits, hmap, hsmall⟩ := ih htext
    obtain ⟨escaped, hescaped, hscan⟩ := scanUnits_escapePoint (of_decide_eq_true hn)
      (text.flatMap escapePoint ++ '"' :: rest)
    refine ⟨(n, escaped) :: units, ?_, ?_, ?_⟩
    · rw [List.flatMap_cons, List.append_assoc, hscan, hunits]
      rfl
    · rw [List.map_cons, hmap]
    · intro u hu
      rcases List.mem_cons.mp hu with rfl | hu
      · exact hescaped
      · exact hsmall u hu

theorem foldr_joinSurrogate {units : List (Nat × Bool)} (h : ∀ u ∈ units, u.2 = true → u.1 < 32) :
    units.foldr joinSurrogate [] = units := by
  induction units with
  | nil => rfl
  | cons u units ih =>
    rw [List.foldr_cons, ih fun v hv => h v (List.mem_cons_of_mem u hv)]
    have hu := h u List.mem_cons_self
    unfold joinSurrogate
    split
    · rename_i low tail
      rw [if_neg]
      intro hjoin
      simp only [Bool.and_eq_true, decide_eq_true_eq] at hjoin
      have hsmall := hu hjoin.1.1.1.1
      omega
    · rfl

theorem scanText_dump {text : List Nat} (h : isText text = true) (rest : List Char) :
    scanText (text.flatMap escapePoint ++ '"' :: rest) = .ok (text, rest) := by
  obtain ⟨units, hunits, hmap, hsmall⟩ := scanUnits_dump h rest
  rw [scanText, hunits]
  simp only [foldr_joinSurrogate hsmall, hmap]

theorem isJsonDigit_eq (c : Char) : isJsonDigit c = c.isDigit := by
  rw [isJsonDigit, Char.isDigit, Bool.eq_iff_iff]
  simp [Char.le_def, UInt32.le_iff_toNat_le]

theorem digitChar_ne_zero : ∀ n < 10, n ≠ 0 → n.digitChar ≠ '0' := by decide

theorem head_toDigits {n : Nat} (hn : n ≠ 0) : (Nat.toDigits 10 n).head? ≠ some '0' := by
  induction n using Nat.strongRecOn with
  | ind n ih =>
    by_cases hsmall : n < 10
    · rw [Nat.toDigits_of_lt_base hsmall]
      exact fun h => digitChar_ne_zero n hsmall hn (Option.some.inj h)
    · have hpos : n / 10 ≠ 0 := by omega
      have hlt : n / 10 < n := by omega
      rw [Nat.toDigits_of_base_le (by decide) (by omega), List.head?_append]
      cases hhead : (Nat.toDigits 10 (n / 10)).head? with
      | none => exact absurd (List.head?_eq_none_iff.mp hhead) Nat.toDigits_ne_nil
      | some c =>
        have hc := ih (n / 10) hlt hpos
        rw [hhead] at hc
        exact hc

theorem scanDigits_toDigits (n : Nat) :
    scanDigits (Nat.toDigits 10 n) = some (Nat.toDigits 10 n, []) := by
  by_cases hn : n = 0
  · subst hn
    rfl
  cases htext : Nat.toDigits 10 n with
  | nil => exact absurd htext Nat.toDigits_ne_nil
  | cons c cs =>
    have hdigits : ∀ d ∈ c :: cs, isJsonDigit d = true := fun d hd => by
      rw [isJsonDigit_eq]
      exact Nat.isDigit_of_mem_toDigits (by decide) (by decide) (htext ▸ hd)
    have hc : c ≠ '0' := by
      rintro rfl
      exact head_toDigits hn (by rw [htext]; rfl)
    have hspan : cs.span isJsonDigit = (cs, []) := by
      have hall : ∀ d ∈ cs, isJsonDigit d = true := fun d hd => hdigits d (List.mem_cons_of_mem c hd)
      rw [List.span_eq_takeWhile_dropWhile, List.takeWhile_eq_self_iff.mpr hall,
        List.dropWhile_eq_nil_iff.mpr hall]
    rw [scanDigits.eq_2 _ _ (by simp [hc]), if_pos (hdigits c List.mem_cons_self), hspan]

theorem digitsValue_toDigits (n : Nat) : digitsValue (Nat.toDigits 10 n) = n := by
  have h := Nat.ofDigitChars_ten_toDigits (n := n)
  rw [Nat.ofDigitChars_eq_foldl] at h
  simp only [Nat.mul_comm 10] at h
  exact h

theorem scanNumber_toDigits {limits : ScanLimits} (negative : Bool) {n : Nat}
    (h : (Nat.toDigits 10 n).length ≤ limits.digits) :
    scanNumber limits negative (Nat.toDigits 10 n) =
      .ok (.int (if negative then -(n : Int) else n), []) := by
  rw [scanNumber, scanDigits_toDigits]
  simp only [scanFraction, scanExponent, and_self, if_true]
  rw [if_neg (by omega), digitsValue_toDigits]

theorem scanValue_digit {limits : ScanLimits} (depth : Nat) {c : Char} (hc : isJsonDigit c = true)
    (s : List Char) : scanValue limits depth (c :: s) = scanNumber limits false (c :: s) := by
  unfold scanValue
  split <;> first | rfl | exact absurd hc (by decide)

theorem scanValue_dumpInt {limits : ScanLimits} (depth : Nat) {n : Int}
    (h : (Nat.toDigits 10 n.natAbs).length ≤ limits.digits) :
    scanValue limits depth (dumpInt n) = .ok (.int n, []) := by
  have hfirst : ∃ c cs, Nat.toDigits 10 n.natAbs = c :: cs ∧ isJsonDigit c = true := by
    cases htext : Nat.toDigits 10 n.natAbs with
    | nil => exact absurd htext Nat.toDigits_ne_nil
    | cons c cs =>
      refine ⟨c, cs, rfl, ?_⟩
      rw [isJsonDigit_eq]
      exact Nat.isDigit_of_mem_toDigits (by decide) (by decide) (htext ▸ List.mem_cons_self)
  obtain ⟨c, cs, htext, hc⟩ := hfirst
  by_cases hn : n < 0
  · have hI : c ≠ 'I' := by
      rintro rfl
      exact absurd hc (by decide)
    have hscan : scanValue limits depth ('-' :: c :: cs) = scanNumber limits true (c :: cs) := by
      unfold scanValue
      simp [Ne.symm hI]
    rw [dumpInt, if_pos hn, htext]
    show scanValue limits depth ('-' :: c :: cs) = _
    rw [hscan, ← htext, scanNumber_toDigits true h, if_pos rfl]
    congr 3
    omega
  · rw [dumpInt, if_neg hn, List.nil_append, htext, scanValue_digit depth hc, ← htext,
      scanNumber_toDigits false h, if_neg (by decide)]
    congr 3
    omega

theorem scanNumber_float {limits limits' : ScanLimits} {negative : Bool} {s r literal : List Char}
    (h : scanNumber limits negative s = .ok (.float literal, r)) :
    scanNumber limits' negative s = .ok (.float literal, r) := by
  unfold scanNumber at h ⊢
  split at h
  · cases h
  · simp only at h ⊢
    split at h
    · split at h <;> cases h
    · rename_i hplain
      rw [if_neg hplain]
      exact h

theorem scanValue_float {limits : ScanLimits} (depth : Nat) {literal : List Char}
    (h : isFloatLiteral literal = true) :
    scanValue limits depth literal = .ok (.float literal, []) := by
  replace h := (Bool.and_eq_true_iff.mp h).2
  split at h
  · rename_i read hread
    rw [of_decide_eq_true h] at hread
    cases literal with
    | nil => cases hread
    | cons c s =>
      unfold scanValue at hread ⊢
      split at hread
      · cases htext : scanText s <;> rw [htext] at hread <;> cases hread
      · cases hread
      · cases hread
      · cases (scanWord_spec hread (by decide)).2
      · cases (scanWord_spec hread (by decide)).2
      · cases (scanWord_spec hread (by decide)).2
      · exact hread
      · exact hread
      · split at hread
        · rename_i hword
          rw [if_pos hword]
          exact hread
        · rename_i hword
          rw [if_neg hword]
          exact scanNumber_float hread
      · exact scanNumber_float hread
  · cases h

/-! ## The round trip -/

theorem skipSpace_spaces {spaces : List Char} (h : ∀ c ∈ spaces, isJsonSpace c = true)
    (s : List Char) : skipSpace (spaces ++ s) = skipSpace s := by
  rw [skipSpace, List.dropWhile_append_of_pos h]
  rfl

theorem skipSpace_cons {c : Char} (h : isJsonSpace c = false) (s : List Char) :
    skipSpace (c :: s) = c :: s := by
  rw [skipSpace, List.dropWhile_cons_of_neg (by simp [h])]

theorem head_of_scanValue {limits : ScanLimits} {depth : Nat} {c : Char} {s r : List Char}
    {value : JsonTree} (h : scanValue limits depth (c :: s) = .ok (value, r)) :
    isJsonSpace c = false ∧ c ≠ ']' := by
  have hnone : ∀ d, d ∈ [' ', '\t', '\n', '\r', ']'] → c ≠ d := by
    rintro d hd rfl
    simp only [List.mem_cons, List.not_mem_nil, or_false] at hd
    rcases hd with rfl | rfl | rfl | rfl | rfl <;> (cases depth <;> cases h)
  refine ⟨?_, hnone ']' (by decide)⟩
  simp [isJsonSpace, hnone ' ' (by decide), hnone '\t' (by decide), hnone '\n' (by decide),
    hnone '\r' (by decide)]

theorem skipSpace_value {limits : ScanLimits} {depth : Nat} {s r : List Char} {value : JsonTree}
    (h : scanValue limits depth s = .ok (value, r)) : skipSpace s = s ∧ ∀ t, s ≠ ']' :: t := by
  cases s with
  | nil =>
    rw [scanValue_nil] at h
    cases h
  | cons c s =>
    obtain ⟨hspace, hclose⟩ := head_of_scanValue h
    exact ⟨skipSpace_cons hspace s, fun t ht => hclose (List.cons.inj ht).1⟩

section Containers
variable {limits : ScanLimits} {depth level : Nat} {layout : Layout}

theorem length_le_dumpItems (items : List JsonTree) :
    items.length ≤ (dumpItems layout level items).length := by
  induction items with
  | nil => exact Nat.zero_le _
  | cons item items ih =>
    simp only [dumpItems, List.length_cons, List.length_append]
    omega

theorem length_le_dumpEntries (entries : List (List Nat × JsonTree)) :
    entries.length ≤ (dumpEntries layout level entries).length := by
  induction entries with
  | nil => exact Nat.zero_le _
  | cons entry entries ih =>
    simp only [dumpEntries, List.length_cons, List.length_append]
    omega

/-- The value is read back, with what stands behind it left over. -/
def ReadBack (limits : ScanLimits) (layout : Layout) (depth level : Nat) (value : JsonTree) : Prop :=
  ∀ rest, Stops rest → scanValue limits depth (dump layout level value ++ rest) = .ok (value, rest)

theorem stops_cons {c : Char} {s : List Char} (h : isJsonDigit c = false ∧ c ≠ '.' ∧ c ≠ 'e' ∧ c ≠ 'E') :
    Stops (c :: s) := by
  intro d hd
  obtain rfl := Option.some.inj hd
  exact h

theorem stops_spaces {spaces s : List Char} (h : ∀ c ∈ spaces, isJsonSpace c = true) (hs : Stops s) :
    Stops (spaces ++ s) := by
  cases spaces with
  | nil => exact hs
  | cons c spaces =>
    have hc : c = ' ' ∨ c = '\t' ∨ c = '\n' ∨ c = '\r' := by
      simpa [isJsonSpace, or_assoc] using h c List.mem_cons_self
    rcases hc with rfl | rfl | rfl | rfl <;> exact stops_cons (by decide)

theorem stops_dumpItems (items : List JsonTree) (rest : List Char) :
    Stops (dumpItems layout level items ++ rest) := by
  cases items with
  | nil =>
    rw [dumpItems, List.append_assoc]
    exact stops_spaces (layout.pad_spaces level) (stops_cons (by decide))
  | cons item items => exact stops_cons (by decide)

theorem stops_dumpEntries (entries : List (List Nat × JsonTree)) (rest : List Char) :
    Stops (dumpEntries layout level entries ++ rest) := by
  cases entries with
  | nil =>
    rw [dumpEntries, List.append_assoc]
    exact stops_spaces (layout.pad_spaces level) (stops_cons (by decide))
  | cons entry entries => exact stops_cons (by decide)

theorem scanItems_dump {items : List JsonTree} : ∀ {item : JsonTree} {n : Nat} (rest : List Char),
    (∀ v ∈ item :: items, ReadBack limits layout depth (level + 1) v) → items.length < n →
    scanItems (scanValue limits depth) n
      (dump layout (level + 1) item ++ (dumpItems layout level items ++ rest)) =
        .ok (item :: items, rest) := by
  induction items with
  | nil =>
    intro item n rest hread hn
    cases n with
    | zero => exact absurd hn (Nat.not_lt_zero _)
    | succ n =>
      have htail : dumpItems layout level [] ++ rest = layout.pad level ++ ']' :: rest := by
        simp [dumpItems]
      have hstop : Stops (layout.pad level ++ ']' :: rest) :=
        stops_spaces (layout.pad_spaces level) (stops_cons (by decide))
      have hitem : scanValue limits depth (dump layout (level + 1) item ++ _) = _ :=
        hread item List.mem_cons_self _ hstop
      rw [htail, scanItems, hitem]
      simp only [bind, Except.bind]
      rw [skipSpace_spaces (layout.pad_spaces level), skipSpace_cons (by decide)]
      rfl
  | cons next items ih =>
    intro item n rest hread hn
    cases n with
    | zero => exact absurd hn (Nat.not_lt_zero _)
    | succ n =>
      have htail : dumpItems layout level (next :: items) ++ rest = ',' :: (layout.gap ++
          (layout.pad (level + 1) ++ (dump layout (level + 1) next ++
            (dumpItems layout level items ++ rest)))) := by
        simp [dumpItems]
      have hitem : scanValue limits depth (dump layout (level + 1) item ++ _) = _ :=
        hread item List.mem_cons_self (',' :: (layout.gap ++ (layout.pad (level + 1) ++
          (dump layout (level + 1) next ++ (dumpItems layout level items ++ rest)))))
          (stops_cons (by decide))
      have hitems := ih rest (fun v hv => hread v (List.mem_cons_of_mem item hv))
        (show items.length < n by simpa using hn)
      have hspace : skipSpace (dump layout (level + 1) next ++ (dumpItems layout level items ++ rest)) =
          dump layout (level + 1) next ++ (dumpItems layout level items ++ rest) :=
        (skipSpace_value (hread next (by simp) _ (stops_dumpItems items rest))).1
      rw [htail, scanItems, hitem]
      simp only [bind, Except.bind]
      rw [skipSpace_cons (by decide)]
      simp only
      rw [skipSpace_spaces layout.gap_spaces, skipSpace_spaces (layout.pad_spaces _), hspace, hitems]
      rfl

theorem dumpText_append (text : List Nat) (t : List Char) :
    dumpText text ++ t = '"' :: (text.flatMap escapePoint ++ '"' :: t) := by
  simp [dumpText]

theorem scanEntries_entry {key : List Nat} {value : JsonTree} {n : Nat} {text tail : List Char}
    (hkey : isText key = true) (hscan : scanValue limits depth text = .ok (value, tail)) :
    scanEntries (scanValue limits depth) (n + 1) (dumpText key ++ ':' :: ' ' :: text) =
      match skipSpace tail with
      | '}' :: s => .ok ([(key, value)], s)
      | ',' :: s => do
        let (entries, s) ← scanEntries (scanValue limits depth) n (skipSpace s)
        return ((key, value) :: entries, s)
      | _ => .error .invalid := by
  have hspace : skipSpace (' ' :: text) = text := by
    rw [show ' ' :: text = [' '] ++ text from rfl, skipSpace_spaces (List.all_eq_true.mp (by decide))]
    exact (skipSpace_value hscan).1
  rw [dumpText_append]
  simp only [scanEntries, scanText_dump hkey, bind, Except.bind]
  rw [skipSpace_cons (by decide)]
  simp only
  rw [hspace, hscan]
  rfl

theorem scanEntries_dump {entries : List (List Nat × JsonTree)} :
    ∀ {key : List Nat} {value : JsonTree} {n : Nat} (rest : List Char),
    (∀ e ∈ (key, value) :: entries, isText e.1 = true ∧
      ReadBack limits layout depth (level + 1) e.2) → entries.length < n →
    scanEntries (scanValue limits depth) n (dumpText key ++ ':' :: ' ' ::
      (dump layout (level + 1) value ++ (dumpEntries layout level entries ++ rest))) =
        .ok ((key, value) :: entries, rest) := by
  induction entries with
  | nil =>
    intro key value n rest hread hn
    cases n with
    | zero => exact absurd hn (Nat.not_lt_zero _)
    | succ n =>
      obtain ⟨hkey, hvalue⟩ := hread (key, value) List.mem_cons_self
      have htail : dumpEntries layout level [] ++ rest = layout.pad level ++ '}' :: rest := by
        simp [dumpEntries]
      rw [scanEntries_entry hkey (hvalue _ (stops_dumpEntries [] rest)), htail,
        skipSpace_spaces (layout.pad_spaces level), skipSpace_cons (by decide)]
      rfl
  | cons next entries ih =>
    intro key value n rest hread hn
    obtain ⟨nextKey, nextValue⟩ := next
    cases n with
    | zero => exact absurd hn (Nat.not_lt_zero _)
    | succ n =>
      obtain ⟨hkey, hvalue⟩ := hread (key, value) List.mem_cons_self
      have htail : dumpEntries layout level ((nextKey, nextValue) :: entries) ++ rest =
          ',' :: (layout.gap ++ (layout.pad (level + 1) ++ (dumpText nextKey ++ ':' :: ' ' ::
            (dump layout (level + 1) nextValue ++ (dumpEntries layout level entries ++ rest))))) := by
        simp [dumpEntries]
      have hentries := ih rest (fun e he => hread e (List.mem_cons_of_mem (key, value) he))
        (show entries.length < n by simpa using hn)
      have hquote : ∀ t, skipSpace (dumpText nextKey ++ t) = dumpText nextKey ++ t :=
        fun t => skipSpace_cons (by decide) _
      rw [scanEntries_entry hkey (hvalue _ (stops_dumpEntries _ rest)), htail,
        skipSpace_cons (by decide)]
      simp only
      rw [skipSpace_spaces layout.gap_spaces, skipSpace_spaces (layout.pad_spaces _), hquote, hentries]
      rfl

theorem foldl_setEntry {κ ν : Type} [DecidableEq κ] {entries : List (κ × ν)} (done : List (κ × ν))
    (h : ((done ++ entries).map (·.1)).Nodup) :
    entries.foldl (fun d entry => setEntry d entry.1 entry.2) done = done ++ entries := by
  induction entries generalizing done with
  | nil => rw [List.foldl_nil, List.append_nil]
  | cons entry entries ih =>
    have hnew : entry.1 ∉ done.map (·.1) := by
      rw [List.map_append, List.map_cons, List.nodup_append] at h
      exact fun hmem => h.2.2 _ hmem _ List.mem_cons_self rfl
    rw [List.foldl_cons, setEntry, if_neg hnew, ih _ (by simpa using h), List.append_assoc]
    rfl

end Containers

theorem fitsItems_iff {limits : ScanLimits} {depth : Nat} {items : List JsonTree} :
    fitsItems limits depth items = true ↔ ∀ v ∈ items, fits limits depth v = true := by
  induction items with
  | nil => simp [fitsItems]
  | cons item items ih => simp [fitsItems, ih]

theorem fitsEntries_iff {limits : ScanLimits} {depth : Nat} {entries : List (List Nat × JsonTree)} :
    fitsEntries limits depth entries = true ↔
      ∀ e ∈ entries, isText e.1 = true ∧ fits limits depth e.2 = true := by
  induction entries with
  | nil => simp [fitsEntries]
  | cons entry entries ih => simp [fitsEntries, ih, and_assoc]

section ReadBack
variable {limits : ScanLimits} {layout : Layout} {depth level : Nat}

theorem scanValue_append {text : List Char} {value : JsonTree}
    (h : scanValue limits depth text = .ok (value, [])) {rest : List Char} (hrest : Stops rest) :
    scanValue limits depth (text ++ rest) = .ok (value, rest) := by
  rw [scanValue_extends depth text rest (fun a r hr => by
    rw [h] at hr
    obtain ⟨-, rfl⟩ := Prod.mk.inj (Except.ok.inj hr)
    exact ⟨stops_nil, hrest⟩) (by rw [h]; nofun), h]
  rfl

theorem readBack_str {text : List Nat} (h : isText text = true) :
    ReadBack limits layout depth level (.str text) := by
  intro rest _
  rw [dump, dumpText_append]
  have hscan : scanValue limits depth ('"' :: (text.flatMap escapePoint ++ '"' :: rest)) =
      (scanText (text.flatMap escapePoint ++ '"' :: rest)).map fun r => (.str r.1, r.2) := by
    cases depth <;> rfl
  rw [hscan, scanText_dump h]
  rfl

theorem readBack_arr {items : List JsonTree}
    (h : ∀ v ∈ items, ReadBack limits layout depth (level + 1) v) :
    ReadBack limits layout (depth + 1) level (.arr items) := by
  intro rest _
  cases items with
  | nil => rfl
  | cons item items =>
    have htext : dump layout level (.arr (item :: items)) ++ rest = '[' :: (layout.pad (level + 1) ++
        (dump layout (level + 1) item ++ (dumpItems layout level items ++ rest))) := by
      simp [dump]
    obtain ⟨hspace, hopen⟩ := skipSpace_value (h item List.mem_cons_self _ (stops_dumpItems items rest))
    have hlength : items.length ≤ (dumpItems layout level items).length :=
      length_le_dumpItems items
    have hfuel : items.length < (dump layout (level + 1) item ++
        (dumpItems layout level items ++ rest)).length + 1 := by
      simp only [List.length_append]
      omega
    have hitems := scanItems_dump rest h hfuel
    rw [htext]
    show scanArray (scanValue limits depth) _ = _
    rw [scanArray, skipSpace_spaces (layout.pad_spaces _), hspace]
    split
    · rename_i t heq
      exact absurd heq (hopen t)
    · rw [hitems]
      rfl

theorem readBack_obj {entries : List (List Nat × JsonTree)} (hkeys : (entries.map (·.1)).Nodup)
    (h : ∀ e ∈ entries, isText e.1 = true ∧ ReadBack limits layout depth (level + 1) e.2) :
    ReadBack limits layout (depth + 1) level (.obj entries) := by
  intro rest _
  cases entries with
  | nil => rfl
  | cons entry entries =>
    obtain ⟨key, value⟩ := entry
    have htext : dump layout level (.obj ((key, value) :: entries)) ++ rest =
        '{' :: (layout.pad (level + 1) ++ (dumpText key ++ ':' :: ' ' ::
          (dump layout (level + 1) value ++ (dumpEntries layout level entries ++ rest)))) := by
      simp [dump]
    have hlength : entries.length ≤ (dumpEntries layout level entries).length :=
      length_le_dumpEntries entries
    have hfuel : entries.length < (dumpText key ++ ':' :: ' ' ::
        (dump layout (level + 1) value ++ (dumpEntries layout level entries ++ rest))).length + 1 := by
      simp only [List.length_append, List.length_cons]
      omega
    have hentries := scanEntries_dump rest h hfuel
    have hquote : ∀ t, skipSpace (dumpText key ++ t) = dumpText key ++ t :=
      fun t => skipSpace_cons (by decide) _
    rw [htext]
    show scanObject (scanValue limits depth) _ = _
    rw [scanObject, skipSpace_spaces (layout.pad_spaces _), hquote]
    split
    · rename_i t heq
      rw [dumpText_append] at heq
      exact absurd (List.cons.inj heq).1 (by decide)
    · rw [hentries]
      simp only [bind, Except.bind]
      rw [foldl_setEntry [] hkeys]
      rfl

end ReadBack

/-- **Every value that fits is read back.** -/
theorem readBack_of_fits {limits : ScanLimits} {layout : Layout} {depth : Nat} (level : Nat)
    (value : JsonTree) (h : fits limits depth value = true) :
    ReadBack limits layout depth level value := by
  match value with
  | .null =>
    intro rest _
    cases depth <;> rfl
  | .bool true =>
    intro rest _
    cases depth <;> rfl
  | .bool false =>
    intro rest _
    cases depth <;> rfl
  | .int n =>
    intro rest hrest
    exact scanValue_append (scanValue_dumpInt depth (of_decide_eq_true h)) hrest
  | .float literal =>
    intro rest hrest
    exact scanValue_append (scanValue_float depth h) hrest
  | .str text => exact readBack_str h
  | .arr items =>
    cases depth with
    | zero => cases h
    | succ depth =>
      have hitems := fitsItems_iff.mp h
      exact readBack_arr fun v hv => readBack_of_fits (level + 1) v (hitems v hv)
  | .obj entries =>
    cases depth with
    | zero => cases h
    | succ depth =>
      obtain ⟨hkeys, hentries⟩ := by simpa only [fits, Bool.and_eq_true, decide_eq_true_eq] using h
      refine readBack_obj hkeys fun e he => ?_
      obtain ⟨hkey, hvalue⟩ := fitsEntries_iff.mp hentries e he
      exact ⟨hkey, readBack_of_fits (level + 1) e.2 hvalue⟩

section Loads
variable {limits : ScanLimits} {layout : Layout} {value : JsonTree}

/-- **What is written is read back.** -/
theorem loads_dump (h : fits limits limits.depth value = true) (level : Nat) :
    jsonLoads limits (dump layout level value) = .ok value := by
  have hread : ReadBack limits layout limits.depth level value := readBack_of_fits level value h
  have hscan := hread [] stops_nil
  rw [List.append_nil] at hscan
  have hbom : (dump layout level value).head? ≠ some '\uFEFF' := by
    intro hhead
    cases htext : dump layout level value with
    | nil =>
      rw [htext] at hhead
      cases hhead
    | cons c s =>
      rw [htext] at hscan hhead
      obtain rfl := Option.some.inj hhead
      cases hdepth : limits.depth <;> (rw [hdepth] at hscan; cases hscan)
  rw [jsonLoads, if_neg hbom, rawDecode, (skipSpace_value hscan).1, hscan]
  rfl

theorem loads_of_dumps {text : List Char} (h : jsonDumps limits value = some text) :
    jsonLoads limits text = .ok value := by
  obtain ⟨hfits, htext⟩ := Option.ite_none_right_eq_some.mp h
  rw [← Option.some.inj htext]
  exact loads_dump hfits 0

theorem loads_of_dumps_prefix {entries : List (List Nat × JsonTree)} {p q : List Char}
    (h : jsonDumps limits (.obj entries) = some (p ++ q)) (hq : q ≠ []) :
    jsonLoads limits p = .error .invalid := by
  obtain ⟨hfits, htext⟩ := Option.ite_none_right_eq_some.mp h
  have hread : ReadBack limits .line limits.depth 0 (.obj entries) := readBack_of_fits 0 _ hfits
  have hscan := hread [] stops_nil
  rw [List.append_nil] at hscan
  obtain ⟨s, hs⟩ : ∃ s, dump .line 0 (.obj entries) = '{' :: s := by
    cases entries with
    | nil => exact ⟨_, rfl⟩
    | cons entry entries => exact ⟨_, rfl⟩
  rw [hs] at hscan htext
  exact loads_of_prefix hscan (Option.some.inj htext) hq

end Loads

/-! ## The characters of the text -/

mutual

def textPoints : JsonTree → List Nat
  | .str text => text
  | .arr items => textPointsItems items
  | .obj entries => textPointsEntries entries
  | _ => []

def textPointsItems : List JsonTree → List Nat
  | [] => []
  | item :: items => textPoints item ++ textPointsItems items

def textPointsEntries : List (List Nat × JsonTree) → List Nat
  | [] => []
  | (key, value) :: entries => key ++ textPoints value ++ textPointsEntries entries

end

theorem isPlain_toDigits {n : Nat} {d : Char} (hd : d ∈ Nat.toDigits 10 n) : isPlain d = true := by
  have hdigit := Nat.isDigit_of_mem_toDigits (by decide) (by decide) hd
  rw [← isJsonDigit_eq, isJsonDigit] at hdigit
  simp only [Char.le_def, UInt32.le_iff_toNat_le, Bool.and_eq_true, decide_eq_true_eq] at hdigit
  have hlow : 48 ≤ d.toNat := hdigit.1
  have hhigh : d.toNat ≤ 57 := hdigit.2
  simp only [isPlain, Bool.and_eq_true, decide_eq_true_eq]
  omega

section Characters
variable {c : Char} (hc : isPlain c = false)
include hc

theorem not_mem_of_plain {s : List Char} (h : ∀ d ∈ s, isPlain d = true) : c ∉ s := by
  intro hmem
  rw [h c hmem] at hc
  cases hc

theorem mem_escapePoint {n : Nat} (hn : n.isValidChar) :
    c ∈ escapePoint n ↔ 127 ≤ c.toNat ∧ c.toNat = n := by
  by_cases hsmall : n < 127
  · -- what is escaped is written in plain characters
    refine iff_of_false (not_mem_of_plain hc ?_) (by omega)
    have hall : ∀ m < 127, (escapePoint m).all isPlain = true := by decide +kernel
    exact List.all_eq_true.mp (hall n hsmall)
  · have htext : escapePoint n = [Char.ofNat n] := by
      rw [escapePoint]
      repeat rw [if_neg (by omega)]
    rw [htext, List.mem_singleton]
    constructor
    · rintro rfl
      rw [toNat_ofNat_of_valid hn]
      exact ⟨by omega, rfl⟩
    · rintro ⟨-, rfl⟩
      exact (Char.ofNat_toNat c).symm

theorem mem_dumpText {text : List Nat} (h : isText text = true) :
    c ∈ dumpText text ↔ 127 ≤ c.toNat ∧ c.toNat ∈ text := by
  have hquote : c ≠ '"' := by
    rintro rfl
    cases hc
  have hvalid : ∀ n ∈ text, n.isValidChar := fun n hn => of_decide_eq_true (List.all_eq_true.mp h n hn)
  rw [dumpText, List.cons_append, List.mem_cons, List.mem_append, List.mem_singleton,
    or_iff_right hquote, or_iff_left hquote, List.mem_flatMap]
  constructor
  · rintro ⟨n, hn, hmem⟩
    obtain ⟨hlarge, rfl⟩ := (mem_escapePoint hc (hvalid n hn)).mp hmem
    exact ⟨hlarge, hn⟩
  · rintro ⟨hlarge, hmem⟩
    exact ⟨c.toNat, hmem, (mem_escapePoint hc (hvalid _ hmem)).mpr ⟨hlarge, rfl⟩⟩

/-- Where the character is no plain one, a value brings it as one of its texts. -/
def Brings (c : Char) (level : Nat) (value : JsonTree) : Prop :=
  c ∈ dump .line level value ↔ 127 ≤ c.toNat ∧ c.toNat ∈ textPoints value

theorem mem_dumpItems {level : Nat} {items : List JsonTree}
    (h : ∀ v ∈ items, Brings c (level + 1) v) :
    c ∈ dumpItems .line level items ↔ 127 ≤ c.toNat ∧ c.toNat ∈ textPointsItems items := by
  induction items with
  | nil =>
    refine iff_of_false (not_mem_of_plain hc ?_) (by simp [textPointsItems])
    simp [dumpItems, Layout.line, isPlain]
  | cons item items ih =>
    have hcomma : c ∉ ',' :: Layout.line.gap ++ Layout.line.pad (level + 1) :=
      not_mem_of_plain hc (by simp [Layout.line, isPlain])
    have hitem : c ∈ dump .line (level + 1) item ↔ _ := h item List.mem_cons_self
    rw [dumpItems, List.mem_append, List.mem_append, or_iff_right hcomma, hitem,
      ih fun v hv => h v (List.mem_cons_of_mem item hv), textPointsItems, List.mem_append]
    exact and_or_left.symm

theorem mem_dumpEntries {level : Nat} {entries : List (List Nat × JsonTree)}
    (h : ∀ e ∈ entries, isText e.1 = true ∧ Brings c (level + 1) e.2) :
    c ∈ dumpEntries .line level entries ↔
      127 ≤ c.toNat ∧ c.toNat ∈ textPointsEntries entries := by
  induction entries with
  | nil =>
    refine iff_of_false (not_mem_of_plain hc ?_) (by simp [textPointsEntries])
    simp [dumpEntries, Layout.line, isPlain]
  | cons entry entries ih =>
    obtain ⟨key, value⟩ := entry
    obtain ⟨hkey, hvalue⟩ := h (key, value) List.mem_cons_self
    have hcomma : c ∉ ',' :: Layout.line.gap := not_mem_of_plain hc (List.all_eq_true.mp (by decide))
    have hpad : c ∉ Layout.line.pad (level + 1) := not_mem_of_plain hc (by simp [Layout.line])
    have hcolon : c ∉ [':', ' '] := not_mem_of_plain hc (List.all_eq_true.mp (by decide))
    have hmem : c ∈ dump .line (level + 1) value ↔ _ := hvalue
    rw [dumpEntries]
    simp only [List.mem_append, or_iff_right hcomma, or_iff_right hpad, mem_dumpText hc hkey,
      or_iff_left hcolon, hmem, ih fun e he => h e (List.mem_cons_of_mem (key, value) he),
      textPointsEntries, ← and_or_left]

theorem brings_of_plain {level : Nat} {value : JsonTree}
    (h : ∀ d ∈ dump .line level value, isPlain d = true) (hnone : textPoints value = []) :
    Brings c level value :=
  iff_of_false (not_mem_of_plain hc h) (by simp [hnone])

/-- **A line has no control character, and of the others beyond ASCII those of its
texts.** -/
theorem brings_of_fits {limits : ScanLimits} {depth : Nat} (level : Nat) (value : JsonTree)
    (h : fits limits depth value = true) : Brings c level value := by
  match value with
  | .null => exact brings_of_plain hc (by simp [dump, isPlain]) rfl
  | .bool true => exact brings_of_plain hc (by simp [dump, isPlain]) rfl
  | .bool false => exact brings_of_plain hc (by simp [dump, isPlain]) rfl
  | .int n =>
    refine brings_of_plain hc (fun d hd => ?_) rfl
    rw [dump, dumpInt, List.mem_append] at hd
    rcases hd with hd | hd
    · split at hd
      · obtain rfl := List.mem_singleton.mp hd
        decide
      · cases hd
    · exact isPlain_toDigits hd
  | .float literal =>
    exact brings_of_plain hc (List.all_eq_true.mp (Bool.and_eq_true_iff.mp h).1) rfl
  | .str text => exact mem_dumpText hc h
  | .arr items =>
    cases depth with
    | zero => cases h
    | succ depth =>
      cases items with
      | nil => exact brings_of_plain hc (by simp [dump, isPlain]) rfl
      | cons item items =>
        have hitems := fitsItems_iff.mp h
        have hopen : c ∉ '[' :: Layout.line.pad (level + 1) :=
          not_mem_of_plain hc (by simp [Layout.line, isPlain])
        have hitem : c ∈ dump .line (level + 1) item ↔ _ :=
          brings_of_fits (level + 1) item (hitems item List.mem_cons_self)
        rw [Brings, dump, List.mem_append, List.mem_append, or_iff_right hopen, hitem,
          mem_dumpItems hc fun v hv => brings_of_fits (level + 1) v
            (hitems v (List.mem_cons_of_mem item hv)), textPoints, textPointsItems, List.mem_append]
        exact and_or_left.symm
  | .obj entries =>
    cases depth with
    | zero => cases h
    | succ depth =>
      cases entries with
      | nil => exact brings_of_plain hc (by simp [dump, isPlain]) rfl
      | cons entry entries =>
        obtain ⟨key, value⟩ := entry
        obtain ⟨-, hentries⟩ := by simpa only [fits, Bool.and_eq_true, decide_eq_true_eq] using h
        have hall := fitsEntries_iff.mp hentries
        obtain ⟨hkey, hvalue⟩ := hall (key, value) List.mem_cons_self
        have hopen : c ∉ '{' :: Layout.line.pad (level + 1) :=
          not_mem_of_plain hc (by simp [Layout.line, isPlain])
        have hcolon : c ∉ [':', ' '] := not_mem_of_plain hc (List.all_eq_true.mp (by decide))
        have hmem : c ∈ dump .line (level + 1) value ↔ _ := brings_of_fits (level + 1) value hvalue
        have htail : c ∈ dumpEntries .line level entries ↔ _ := mem_dumpEntries hc fun e he =>
          ⟨(hall e (List.mem_cons_of_mem (key, value) he)).1,
            brings_of_fits (level + 1) e.2 (hall e (List.mem_cons_of_mem (key, value) he)).2⟩
        rw [Brings, dump, List.mem_append, List.mem_append, List.mem_append, List.mem_append,
          or_iff_right hopen, mem_dumpText hc hkey, or_iff_left hcolon, hmem, htail, textPoints,
          textPointsEntries, List.mem_append, List.mem_append, and_or_left, and_or_left]

end Characters

end HamZaboon.Library
