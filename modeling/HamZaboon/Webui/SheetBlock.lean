import HamZaboon.Library.JsonText
import HamZaboon.Webui.AnswerSheet

/-! # The block of an answer sheet

`_extract_json_block` counts braces outside of strings, with a string and an escape flag
of its own.  What the JSON scanner takes for a value leaves the count as it was
(`scanValue_spans`), so the count gets back to zero at the brace that closes the object
and nowhere before it, and the object is the block (`blockUpTo_object`).

The whole text is read first, and only its `ValueError` leads to the block: a text that
nests too deep before the object fails with another error (`extractJsonBlock_iff`).
-/

namespace HamZaboon
open Library

/-! ## Characters that count nothing -/

/-- Inside an open brace, the count goes over the characters and is the same behind them. -/
def Balanced (c : List Char) : Prop :=
  ∀ depth t, depth ≠ 0 →
    blockUpTo depth false false (c ++ t) = (blockUpTo depth false false t).map (c ++ ·)

/-- The characters from the one text to the other are balanced. -/
def Spans (s r : List Char) : Prop := ∃ c, s = c ++ r ∧ Balanced c

theorem Balanced.append {c d : List Char} (hc : Balanced c) (hd : Balanced d) :
    Balanced (c ++ d) := by
  intro depth t hdepth
  rw [List.append_assoc, hc depth _ hdepth, hd depth t hdepth, Option.map_map]
  exact congrArg (Option.map · _) (funext fun t => (List.append_assoc c d t).symm)

theorem Spans.refl (s : List Char) : Spans s s :=
  ⟨[], rfl, fun depth t _ => by simp⟩

theorem Spans.trans {s r q : List Char} (hs : Spans s r) (hr : Spans r q) : Spans s q := by
  obtain ⟨c, rfl, hc⟩ := hs
  obtain ⟨d, rfl, hd⟩ := hr
  exact ⟨c ++ d, (List.append_assoc c d q).symm, hc.append hd⟩

/-- The character is no quote and no brace. -/
def isPlain (c : Char) : Bool := c ≠ '"' && c ≠ '{' && c ≠ '}'

theorem Spans.plain {c : Char} (hc : isPlain c = true) (s : List Char) : Spans (c :: s) s := by
  refine ⟨[c], rfl, fun depth t _ => ?_⟩
  simp only [isPlain, Bool.and_eq_true, decide_eq_true_eq] at hc
  rw [List.singleton_append, blockUpTo, if_neg hc.1.1, if_neg hc.1.2, if_neg hc.2]
  rfl

theorem spans_of_plain {c : List Char} (h : ∀ x ∈ c, isPlain x = true) (s : List Char) :
    Spans (c ++ s) s := by
  induction c with
  | nil => exact .refl s
  | cons x c ih =>
    exact (Spans.plain (h x List.mem_cons_self) _).trans
      (ih fun y hy => h y (List.mem_cons_of_mem x hy))

theorem spans_dropWhile {p : Char → Bool} (hp : ∀ c, p c = true → isPlain c = true)
    (s : List Char) : Spans s (s.dropWhile p) := by
  have hspan := spans_of_plain (c := s.takeWhile p)
    (fun c hc => hp c (List.mem_takeWhile_imp hc)) (s.dropWhile p)
  rwa [List.takeWhile_append_dropWhile] at hspan

theorem skipSpace_spans (s : List Char) : Spans s (skipSpace s) := by
  refine spans_dropWhile (fun c hc => ?_) s
  have hspace : c = ' ' ∨ c = '\t' ∨ c = '\n' ∨ c = '\r' := by
    simpa [isJsonSpace, or_assoc] using hc
  rcases hspace with rfl | rfl | rfl | rfl <;> decide

theorem spans_of_skipSpace {s r : List Char} {c : Char} (h : skipSpace s = c :: r)
    (hc : isPlain c = true) : Spans s r :=
  (h ▸ skipSpace_spans s).trans (.plain hc r)

/-! ## Texts -/

/-- The string that begins with the characters goes on behind them. -/
def Continues (c : List Char) : Prop :=
  ∀ depth t, blockUpTo depth true false (c ++ t) = (blockUpTo depth true false t).map (c ++ ·)

theorem Continues.append {c d : List Char} (hc : Continues c) (hd : Continues d) :
    Continues (c ++ d) := by
  intro depth t
  rw [List.append_assoc, hc depth, hd depth, Option.map_map]
  exact congrArg (Option.map · _) (funext fun t => (List.append_assoc c d t).symm)

theorem continues_singleton {c : Char} (hquote : c ≠ '"') (hslash : c ≠ '\\') : Continues [c] := by
  intro depth t
  simp [blockUpTo, hquote, hslash]

theorem continues_escape (e : Char) : Continues ['\\', e] := by
  intro depth t
  have hslash : blockUpTo depth true false ('\\' :: e :: t) =
      (blockUpTo depth true true (e :: t)).map ('\\' :: ·) := by simp [blockUpTo]
  have hescaped : blockUpTo depth true true (e :: t) =
      (blockUpTo depth true false t).map (e :: ·) := by simp [blockUpTo]
  rw [List.cons_append, List.singleton_append, hslash, hescaped, Option.map_map]
  rfl

theorem continues_hexDigit {c : Char} {n : Nat} (h : hexDigit c = some n) : Continues [c] := by
  refine continues_singleton ?_ ?_
  · rintro rfl
    cases (show hexDigit '"' = none by decide).symm.trans h
  · rintro rfl
    cases (show hexDigit '\\' = none by decide).symm.trans h

theorem continues_hexPoint {a b c d : Char} {point : Nat} (h : hexPoint a b c d = some point) :
    Continues ['\\', 'u', a, b, c, d] := by
  obtain ⟨na, ha, h⟩ := Option.bind_eq_some_iff.mp h
  obtain ⟨nb, hb, h⟩ := Option.bind_eq_some_iff.mp h
  obtain ⟨nc, hc, h⟩ := Option.bind_eq_some_iff.mp h
  obtain ⟨nd, hd, -⟩ := Option.bind_eq_some_iff.mp h
  exact ((((continues_escape 'u').append (continues_hexDigit ha)).append
    (continues_hexDigit hb)).append (continues_hexDigit hc)).append (continues_hexDigit hd)

theorem scanUnits_spans {s r : List Char} {units : List (Nat × Bool)}
    (h : scanUnits s = some (units, r)) : ∃ c, s = c ++ '"' :: r ∧ Continues c := by
  fun_induction scanUnits s generalizing units r with
  | case1 => cases h
  | case2 s =>
    obtain ⟨-, rfl⟩ := Prod.mk.inj (Option.some.inj h)
    exact ⟨[], rfl, fun depth t => by simp⟩
  | case3 a b c d s ih =>
    obtain ⟨point, hpoint, h⟩ := Option.bind_eq_some_iff.mp h
    obtain ⟨⟨units', rest⟩, hrest, h⟩ := Option.bind_eq_some_iff.mp h
    obtain ⟨-, rfl⟩ := Prod.mk.inj (Option.some.inj h)
    obtain ⟨w, rfl, hw⟩ := ih hrest
    exact ⟨['\\', 'u', a, b, c, d] ++ w, rfl, (continues_hexPoint hpoint).append hw⟩
  | case4 e s _ ih =>
    obtain ⟨point, -, h⟩ := Option.bind_eq_some_iff.mp h
    obtain ⟨⟨units', rest⟩, hrest, h⟩ := Option.bind_eq_some_iff.mp h
    obtain ⟨-, rfl⟩ := Prod.mk.inj (Option.some.inj h)
    obtain ⟨w, rfl, hw⟩ := ih hrest
    exact ⟨['\\', e] ++ w, rfl, (continues_escape e).append hw⟩
  | case5 => cases h
  | case6 c s hquote _ _ hc ih =>
    obtain ⟨⟨units', rest⟩, hrest, h⟩ := Option.bind_eq_some_iff.mp h
    obtain ⟨-, rfl⟩ := Prod.mk.inj (Option.some.inj h)
    obtain ⟨w, rfl, hw⟩ := ih hrest
    have hslash : c ≠ '\\' := by
      rintro rfl
      exact hc (by simp)
    exact ⟨[c] ++ w, rfl, (continues_singleton hquote hslash).append hw⟩

theorem scanText_spans {s r : List Char} {value : List Nat} (h : scanText s = .ok (value, r)) :
    Spans ('"' :: s) r := by
  unfold scanText at h
  split at h
  · cases h
  · rename_i units rest hunits
    obtain ⟨-, rfl⟩ := Prod.mk.inj (Except.ok.inj h)
    obtain ⟨c, rfl, hc⟩ := scanUnits_spans hunits
    refine ⟨'"' :: (c ++ ['"']), by simp, fun depth t _ => ?_⟩
    have hclose : blockUpTo depth true false ('"' :: t) =
        (blockUpTo depth false false t).map ('"' :: ·) := by simp [blockUpTo]
    rw [List.cons_append, List.append_assoc, List.singleton_append, blockUpTo, if_pos rfl, hc,
      hclose, Option.map_map, Option.map_map]
    exact congrArg (Option.map · _) (funext fun t => by simp)

/-! ## Numbers and words -/

theorem isPlain_of_isJsonDigit {c : Char} (hc : isJsonDigit c = true) : isPlain c = true := by
  refine Bool.eq_true_of_not_eq_false fun hplain => ?_
  have hcases : c = '"' ∨ c = '{' ∨ c = '}' := by
    simpa [isPlain, or_iff_not_imp_left] using hplain
  rcases hcases with rfl | rfl | rfl <;> exact Bool.noConfusion hc

theorem span_spans (s : List Char) : Spans s (s.span isJsonDigit).2 := by
  rw [List.span_eq_takeWhile_dropWhile]
  exact spans_dropWhile (fun _ => isPlain_of_isJsonDigit) s

theorem scanDigits_spans {s digits r : List Char} (h : scanDigits s = some (digits, r)) :
    Spans s r := by
  unfold scanDigits at h
  split at h
  · obtain ⟨-, rfl⟩ := Prod.mk.inj (Option.some.inj h)
    exact .plain (by decide) _
  · rename_i c t _
    split at h
    · rename_i hc
      obtain ⟨-, rfl⟩ := Prod.mk.inj (Option.some.inj h)
      exact (Spans.plain (isPlain_of_isJsonDigit hc) t).trans (span_spans t)
    · cases h
  · cases h

theorem scanFraction_spans (s : List Char) : Spans s (scanFraction s).2 := by
  unfold scanFraction
  split
  · rename_i s
    have hdigits := span_spans s
    split
    · exact .refl _
    · rename_i digits rest _ hspan
      rw [hspan] at hdigits
      exact (Spans.plain (by decide) s).trans hdigits
  · exact .refl _

theorem scanSign_spans (s : List Char) : Spans s (scanSign s).2 := by
  unfold scanSign
  split
  · exact .plain (by decide) _
  · exact .plain (by decide) _
  · exact .refl _

theorem scanExponent_spans (s : List Char) : Spans s (scanExponent s).2 := by
  unfold scanExponent
  split
  · rename_i c t
    split
    · rename_i hc
      have hplain : isPlain c = true := by
        simp only [Bool.or_eq_true, decide_eq_true_eq] at hc
        rcases hc with rfl | rfl <;> decide
      have hdigits := span_spans (scanSign t).2
      simp only
      split
      · exact .refl _
      · rename_i digits rest _ hspan
        rw [hspan] at hdigits
        exact ((Spans.plain hplain t).trans (scanSign_spans t)).trans hdigits
    · exact .refl _
  · exact .refl _

theorem scanNumber_spans {limits : ScanLimits} {negative : Bool} {s r : List Char}
    {value : JsonTree} (h : scanNumber limits negative s = .ok (value, r)) : Spans s r := by
  unfold scanNumber at h
  split at h
  · cases h
  · rename_i digits s' hdigits
    have hspans := ((scanDigits_spans hdigits).trans (scanFraction_spans s')).trans
      (scanExponent_spans (scanFraction s').2)
    simp only at h
    split at h
    · split at h
      · cases h
      · obtain ⟨-, rfl⟩ := Prod.mk.inj (Except.ok.inj h)
        exact hspans
    · obtain ⟨-, rfl⟩ := Prod.mk.inj (Except.ok.inj h)
      exact hspans

theorem drop_spans {word s : List Char} (hword : word.all isPlain = true)
    (hpre : word.isPrefixOf s = true) : Spans s (s.drop word.length) := by
  obtain ⟨t, rfl⟩ := List.isPrefixOf_iff_prefix.mp hpre
  rw [List.drop_left]
  exact spans_of_plain (List.all_eq_true.mp hword) t

theorem scanWord_spans {word s r : List Char} {value v : JsonTree}
    (h : scanWord word value s = .ok (v, r)) (hword : word.all isPlain = true) : Spans s r := by
  unfold scanWord at h
  split at h
  · rename_i hpre
    obtain ⟨-, rfl⟩ := Prod.mk.inj (Except.ok.inj h)
    exact drop_spans hword hpre
  · cases h

/-! ## Arrays and objects -/

section Containers
variable {scan : List Char → Except ScanError (JsonTree × List Char)}
  (hscan : ∀ s value r, scan s = .ok (value, r) → Spans s r)
include hscan

theorem scanItems_spans (n : Nat) {s r : List Char} {items : List JsonTree}
    (h : scanItems scan n s = .ok (items, r)) : Spans s r := by
  induction n generalizing s items with
  | zero => cases h
  | succ n ih =>
    obtain ⟨⟨item, s'⟩, hitem, h⟩ := bind_eq_ok.mp h
    have hspans := hscan s item s' hitem
    simp only at h
    split at h
    · rename_i t heq
      obtain ⟨-, rfl⟩ := Prod.mk.inj (Except.ok.inj h)
      exact hspans.trans (spans_of_skipSpace heq (by decide))
    · rename_i t heq
      obtain ⟨⟨items', r'⟩, hitems, h⟩ := bind_eq_ok.mp h
      obtain ⟨-, hr⟩ := Prod.mk.inj (Except.ok.inj h)
      obtain rfl : r' = r := hr
      exact (hspans.trans (spans_of_skipSpace heq (by decide))).trans
        ((skipSpace_spans t).trans (ih hitems))
    · cases h

theorem scanArray_spans {s r : List Char} {value : JsonTree}
    (h : scanArray scan s = .ok (value, r)) : Spans s r := by
  unfold scanArray at h
  split at h
  · rename_i t heq
    obtain ⟨-, rfl⟩ := Prod.mk.inj (Except.ok.inj h)
    exact spans_of_skipSpace heq (by decide)
  · obtain ⟨⟨items, r'⟩, hitems, h⟩ := bind_eq_ok.mp h
    obtain ⟨-, hr⟩ := Prod.mk.inj (Except.ok.inj h)
    obtain rfl : r' = r := hr
    exact (skipSpace_spans s).trans (scanItems_spans hscan _ hitems)

theorem scanEntries_spans (n : Nat) {s r : List Char} {entries : List (List Nat × JsonTree)}
    (h : scanEntries scan n s = .ok (entries, r)) : Spans s ('}' :: r) := by
  induction n generalizing s entries with
  | zero => cases h
  | succ n ih =>
    unfold scanEntries at h
    split at h
    · rename_i s
      obtain ⟨⟨key, s₁⟩, hkey, h⟩ := bind_eq_ok.mp h
      have hspans₁ := scanText_spans hkey
      simp only at h
      split at h
      · rename_i s₂ heq₂
        obtain ⟨⟨value, s₃⟩, hvalue, h⟩ := bind_eq_ok.mp h
        have hspans₃ := (hspans₁.trans (spans_of_skipSpace heq₂ (by decide))).trans
          ((skipSpace_spans s₂).trans (hscan _ value s₃ hvalue))
        simp only at h
        split at h
        · rename_i s₄ heq₄
          obtain ⟨-, rfl⟩ := Prod.mk.inj (Except.ok.inj h)
          exact hspans₃.trans (heq₄ ▸ skipSpace_spans s₃)
        · rename_i s₄ heq₄
          obtain ⟨⟨entries', r'⟩, hentries, h⟩ := bind_eq_ok.mp h
          obtain ⟨-, hr⟩ := Prod.mk.inj (Except.ok.inj h)
          obtain rfl : r' = r := hr
          exact (hspans₃.trans (spans_of_skipSpace heq₄ (by decide))).trans
            ((skipSpace_spans s₄).trans (ih hentries))
        · cases h
      · cases h
    · cases h

theorem scanObject_spans {s r : List Char} {value : JsonTree}
    (h : scanObject scan s = .ok (value, r)) : Spans s ('}' :: r) := by
  unfold scanObject at h
  split at h
  · rename_i t heq
    obtain ⟨-, rfl⟩ := Prod.mk.inj (Except.ok.inj h)
    exact heq ▸ skipSpace_spans s
  · obtain ⟨⟨entries, r'⟩, hentries, h⟩ := bind_eq_ok.mp h
    obtain ⟨-, hr⟩ := Prod.mk.inj (Except.ok.inj h)
    obtain rfl : r' = r := hr
    exact (skipSpace_spans s).trans (scanEntries_spans hscan _ hentries)

end Containers

theorem Spans.braces {s r : List Char} (h : Spans s ('}' :: r)) : Spans ('{' :: s) r := by
  obtain ⟨c, rfl, hc⟩ := h
  refine ⟨'{' :: (c ++ ['}']), by simp, fun depth t hdepth => ?_⟩
  have hopen : blockUpTo depth false false ('{' :: (c ++ '}' :: t)) =
      (blockUpTo (depth + 1) false false (c ++ '}' :: t)).map ('{' :: ·) := by simp [blockUpTo]
  have hclose : blockUpTo (depth + 1) false false ('}' :: t) =
      (blockUpTo depth false false t).map ('}' :: ·) := by simp [blockUpTo, hdepth]
  rw [List.cons_append, List.append_assoc, List.singleton_append, hopen,
    hc (depth + 1) _ (Nat.succ_ne_zero depth), hclose, Option.map_map, Option.map_map]
  exact congrArg (Option.map · _) (funext fun t => by simp)

theorem scanValue_spans {limits : ScanLimits} {depth : Nat} {s r : List Char} {value : JsonTree}
    (h : scanValue limits depth s = .ok (value, r)) : Spans s r := by
  induction depth using Nat.strongRecOn generalizing s r value with
  | ind depth ih =>
    cases s with
    | nil => cases depth <;> cases h
    | cons c s =>
      unfold scanValue at h
      split at h
      · cases htext : scanText s with
        | error e =>
          rw [htext] at h
          cases h
        | ok text =>
          rw [htext] at h
          obtain ⟨-, rfl⟩ := Prod.mk.inj (Except.ok.inj h)
          exact scanText_spans htext
      · split at h
        · cases h
        · rename_i depth
          exact (scanObject_spans (fun _ _ _ => ih depth (Nat.lt_succ_self depth)) h).braces
      · split at h
        · cases h
        · rename_i depth
          exact (Spans.plain (by decide) s).trans
            (scanArray_spans (fun _ _ _ => ih depth (Nat.lt_succ_self depth)) h)
      · exact scanWord_spans h (by decide)
      · exact scanWord_spans h (by decide)
      · exact scanWord_spans h (by decide)
      · exact scanWord_spans h (by decide)
      · exact scanWord_spans h (by decide)
      · split at h
        · rename_i hpre
          obtain ⟨-, rfl⟩ := Prod.mk.inj (Except.ok.inj h)
          exact (Spans.plain (by decide) s).trans (drop_spans (by decide) hpre)
        · exact (Spans.plain (by decide) s).trans (scanNumber_spans h)
      · exact scanNumber_spans h

/-! ## The block -/

/-- The text is a JSON text of the object, up to its last character, where containers may
nest as deep and integers be as long as they do. -/
def Serializes (s : List Char) (o : List (List Nat × JsonTree)) : Prop :=
  ∃ limits, rawDecode limits s = .ok (.obj o, [])

theorem Serializes.brace {s : List Char} {o : List (List Nat × JsonTree)} (hs : Serializes s o) :
    ∃ u, s = '{' :: u := by
  obtain ⟨limits, hs⟩ := hs
  have hhead := head_of_rawDecode hs
  cases s with
  | nil => cases hhead
  | cons c u =>
    obtain rfl : c = '{' := Option.some.inj hhead
    exact ⟨u, rfl⟩

theorem blockUpTo_object {s : List Char} {o : List (List Nat × JsonTree)} (hs : Serializes s o)
    (post : List Char) : blockUpTo 0 false false (s ++ post) = some s := by
  obtain ⟨u, rfl⟩ := hs.brace
  obtain ⟨limits, hs⟩ := hs
  rw [rawDecode] at hs
  cases hdepth : limits.depth with
  | zero =>
    rw [hdepth] at hs
    cases hs
  | succ depth =>
    rw [hdepth] at hs
    obtain ⟨c, rfl, hc⟩ := scanObject_spans (fun _ _ _ => scanValue_spans) hs
    have hopen : blockUpTo 0 false false ('{' :: (c ++ ['}'] ++ post)) =
        (blockUpTo 1 false false (c ++ ('}' :: post))).map ('{' :: ·) := by simp [blockUpTo]
    have hclose : blockUpTo 1 false false ('}' :: post) = some ['}'] := by simp [blockUpTo]
    rw [List.cons_append, hopen, hc 1 _ Nat.one_ne_zero, hclose]
    rfl

/-- The block of a sheet is the object between a text without an opening brace and any
other text, where the whole is no JSON text.  It is read unless the object itself or the
text before it goes over a limit of the interpreter. -/
theorem extractJsonBlock_iff {limits : ScanLimits} {o : List (List Nat × JsonTree)}
    {pre s post : List Char} (hs : Serializes s o) (hpre : '{' ∉ pre)
    (hwhole : ∀ value, jsonLoads limits (pre ++ s ++ post) ≠ .ok value) :
    extractJsonBlock limits (pre ++ s ++ post) = .ok (.obj o) ↔
      jsonLoads limits s = .ok (.obj o) ∧
        jsonLoads limits (pre ++ s ++ post) ≠ .error .tooDeep := by
  have hblock := blockUpTo_object hs post
  have hstart : (pre ++ s ++ post).dropWhile (· ≠ '{') = s ++ post := by
    obtain ⟨u, rfl⟩ := hs.brace
    have hskip : ∀ c ∈ pre, decide (c ≠ '{') = true := fun c hc =>
      decide_eq_true fun h => hpre (h ▸ hc)
    rw [List.append_assoc, List.dropWhile_append_of_pos hskip]
    rfl
  cases hloads : jsonLoads limits (pre ++ s ++ post) with
  | ok value => exact absurd hloads (hwhole value)
  | error e =>
    rw [extractJsonBlock, hloads]
    cases e with
    -- only a text that is no JSON is searched for its block
    | tooDeep => simp
    | invalid =>
      simp only [hstart, hblock]
      cases hobject : jsonLoads limits s with
      | ok value => simp
      | error e => cases e <;> simp [reject]

/-- The object of a sentence, with a closing brace in a text. -/
theorem extractJsonBlock_sentence :
    extractJsonBlock ⟨1000, 4300⟩
        ("Here: ".toList ++ "\x7b\"a\": \"\x7d\"\x7d".toList ++ ".".toList) =
      .ok (.obj [(points "a", .str (points "\x7d"))]) :=
  (extractJsonBlock_iff ⟨⟨1, 1⟩, rfl⟩ (by decide) fun _ h => by cases h).mpr
    ⟨rfl, fun h => by cases h⟩

/-! ## Brackets before the object -/

theorem scanValue_brackets (limits : ScanLimits) (depth n : Nat) (t : List Char) :
    scanValue limits depth (List.replicate (depth + 1 + n) '[' ++ t) = .error .tooDeep := by
  induction depth with
  | zero =>
    rw [Nat.zero_add, Nat.add_comm, List.replicate_succ]
    rfl
  | succ depth ih =>
    obtain ⟨rest, hrest⟩ : ∃ rest, List.replicate (depth + 1 + n) '[' ++ t = '[' :: rest :=
      ⟨List.replicate (depth + n) '[' ++ t, by
        rw [show depth + 1 + n = (depth + n) + 1 by omega, List.replicate_succ, List.cons_append]⟩
    rw [hrest] at ih
    have hitems : ∀ m, scanItems (scanValue limits depth) (m + 1) ('[' :: rest) = .error .tooDeep := by
      intro m
      rw [scanItems, ih]
      rfl
    have harray : scanArray (scanValue limits depth) ('[' :: rest) =
        (scanItems (scanValue limits depth) (('[' :: rest).length + 1) ('[' :: rest) >>=
          fun items => pure (.arr items.1, items.2)) := rfl
    rw [show depth + 1 + 1 + n = (depth + 1 + n) + 1 by omega, List.replicate_succ,
      List.cons_append, hrest]
    exact harray.trans (by rw [hitems]; rfl)

theorem jsonLoads_brackets (limits : ScanLimits) (n : Nat) (t : List Char) :
    jsonLoads limits (List.replicate (limits.depth + 1 + n) '[' ++ t) = .error .tooDeep := by
  have hscan := scanValue_brackets limits limits.depth n t
  rw [show limits.depth + 1 + n = (limits.depth + n) + 1 by omega, List.replicate_succ,
    List.cons_append] at hscan ⊢
  rw [jsonLoads, List.head?_cons, if_neg (by decide), rawDecode]
  have hskip : ∀ u, skipSpace ('[' :: u) = '[' :: u := fun _ => rfl
  rw [hskip, hscan]
  rfl

/-- An empty object behind a hundred thousand brackets is not read. -/
theorem brackets_hide_object :
    Serializes "\x7b\x7d".toList [] ∧ '{' ∉ List.replicate 100000 '[' ∧
      (∀ value, jsonLoads ⟨1000, 4300⟩ (List.replicate 100000 '[' ++ "\x7b\x7d".toList ++ []) ≠
        .ok value) ∧
      extractJsonBlock ⟨1000, 4300⟩ (List.replicate 100000 '[' ++ "\x7b\x7d".toList ++ []) =
        .error .tooDeep := by
  have hloads : jsonLoads ⟨1000, 4300⟩
      (List.replicate 100000 '[' ++ "\x7b\x7d".toList ++ []) = .error .tooDeep := by
    rw [List.append_assoc]
    exact jsonLoads_brackets ⟨1000, 4300⟩ 98999 _
  refine ⟨⟨⟨1, 1⟩, rfl⟩, fun h => ?_, fun value h => ?_, ?_⟩
  · exact absurd (List.eq_of_mem_replicate h) (by decide)
  · rw [hloads] at h
    cases h
  · rw [extractJsonBlock, hloads]

end HamZaboon
