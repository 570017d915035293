import HamZaboon.Library.JsonWrite

/-! # Stores of lines

A file with a JSON text on each line, which only grows.  The writer puts a line feed
behind the text and leaves the characters beyond ASCII as they are; the reader has
its own line ends (`LineEnds`), and takes over what it can read of the lines.

A reader finds the lines that were written exactly when no text among them holds a
character at which it ends a line (`splitLines_eq_iff`); then it reads the values
back (`loadLines_stored`).
-/

namespace HamZaboon.Library

/-- Where a reader ends a line: at a line feed and a carriage return, and at no plain
character. -/
structure LineEnds where
  isEnd : Char → Bool
  feed : isEnd '\n' = true
  carriage : isEnd '\r' = true
  plain : ∀ c, isPlain c = true → isEnd c = false

/-- A file that is read in text mode line by line. -/
def LineEnds.universal : LineEnds where
  isEnd c := c = '\n' || c = '\r'
  feed := rfl
  carriage := rfl
  plain := by
    intro c hc
    have hfeed : c ≠ '\n' := by
      rintro rfl
      cases hc
    have hcarriage : c ≠ '\r' := by
      rintro rfl
      cases hc
    simp [hfeed, hcarriage]

def LineEnds.splitlines : LineEnds where
  isEnd c := c.toNat ∈ [0x0A, 0x0B, 0x0C, 0x0D, 0x1C, 0x1D, 0x1E, 0x85, 0x2028, 0x2029]
  feed := rfl
  carriage := rfl
  plain := by
    intro c hc
    have hc : 32 ≤ c.toNat ∧ c.toNat < 127 := by simpa [isPlain] using hc
    simp only [List.mem_cons, List.not_mem_nil, or_false, decide_eq_false_iff_not]
    omega

section Lines
variable (ends : LineEnds)

/-- The lines of a text; a carriage return and a line feed end one line. -/
def splitLines : List Char → List (List Char)
  | [] => []
  | '\r' :: '\n' :: s => [] :: splitLines s
  | c :: s =>
    if ends.isEnd c then [] :: splitLines s
    else
      match splitLines s with
      | [] => [[c]]
      | line :: lines => (c :: line) :: lines

attribute [local simp] splitLines.eq_1
attribute [elab_as_elim] splitLines.induct splitLines.fun_cases

/-- The text of lines, each with its line feed. -/
def joinLines (lines : List (List Char)) : List Char := lines.flatMap (· ++ ['\n'])

/-- The file is empty or its last line is complete. -/
def atLineStart (text : List Char) : Bool := text.getLast?.all (· = '\n')

variable {ends}

theorem joinLines_cons (line : List Char) (lines : List (List Char)) :
    joinLines (line :: lines) = line ++ '\n' :: joinLines lines := by
  simp [joinLines]

theorem joinLines_append (a b : List (List Char)) :
    joinLines (a ++ b) = joinLines a ++ joinLines b :=
  List.flatMap_append

theorem splitLines_cons {c : Char} (hc : ends.isEnd c = false) (s : List Char) :
    splitLines ends (c :: s) = match splitLines ends s with
      | [] => [[c]]
      | line :: lines => (c :: line) :: lines := by
  have hcarriage : c ≠ '\r' := by
    rintro rfl
    rw [ends.carriage] at hc
    cases hc
  rw [splitLines.eq_3 _ _ _ (by simp [hcarriage]), if_neg (by simp [hc])]

theorem splitLines_ne_nil {s : List Char} (hs : s ≠ []) : splitLines ends s ≠ [] := by
  fun_cases splitLines ends s with
  | case1 => exact absurd rfl hs
  | case2 => exact List.cons_ne_nil _ _
  | case3 => exact List.cons_ne_nil _ _
  | case4 => exact List.cons_ne_nil _ _
  | case5 => exact List.cons_ne_nil _ _

theorem splitLines_feed (s : List Char) :
    splitLines ends ('\n' :: s) = [] :: splitLines ends s := by
  rw [splitLines.eq_3 _ _ _ (by simp), if_pos ends.feed]

theorem splitLines_line {line : List Char} (h : ∀ c ∈ line, ends.isEnd c = false) (s : List Char) :
    splitLines ends (line ++ '\n' :: s) = line :: splitLines ends s := by
  induction line with
  | nil => exact splitLines_feed s
  | cons c line ih =>
    rw [List.cons_append, splitLines_cons (h c List.mem_cons_self),
      ih fun d hd => h d (List.mem_cons_of_mem c hd)]

theorem splitLines_last {line : List Char} (h : ∀ c ∈ line, ends.isEnd c = false) :
    splitLines ends line = if line = [] then [] else [line] := by
  induction line with
  | nil => rfl
  | cons c line ih =>
    rw [splitLines_cons (h c List.mem_cons_self), ih fun d hd => h d (List.mem_cons_of_mem c hd)]
    by_cases hline : line = []
    · simp [hline]
    · simp [hline]

theorem splitLines_joinLines {lines : List (List Char)}
    (h : ∀ line ∈ lines, ∀ c ∈ line, ends.isEnd c = false) (tail : List Char) :
    splitLines ends (joinLines lines ++ tail) = lines ++ splitLines ends tail := by
  induction lines with
  | nil => rfl
  | cons line lines ih =>
    rw [joinLines_cons, List.append_assoc, List.cons_append,
      splitLines_line (h line List.mem_cons_self),
      ih fun l hl => h l (List.mem_cons_of_mem line hl), List.cons_append]

theorem splitLines_append_feed (s tail : List Char) :
    splitLines ends (s ++ '\n' :: tail) = splitLines ends (s ++ ['\n']) ++ splitLines ends tail := by
  fun_induction splitLines ends s with
  | case1 =>
    rw [List.nil_append, splitLines_feed, List.nil_append, splitLines_feed]
    rfl
  | case2 s ih =>
    simp only [List.cons_append, splitLines.eq_2, ih]
  | case3 c s hpair hc ih =>
    by_cases hfeed : c = '\r' ∧ s = []
    · obtain ⟨rfl, rfl⟩ := hfeed
      simp [splitLines]
    · have hend : ∀ tail, splitLines ends (c :: (s ++ '\n' :: tail)) =
          [] :: splitLines ends (s ++ '\n' :: tail) := by
        intro tail
        rw [splitLines.eq_3, if_pos hc]
        rintro s' rfl heq
        cases s with
        | nil => exact hfeed ⟨rfl, rfl⟩
        | cons d s =>
          rw [List.cons_append] at heq
          obtain ⟨rfl, -⟩ := List.cons.inj heq
          exact hpair s rfl rfl
      rw [List.cons_append, List.cons_append, hend, hend, ih, List.cons_append]
  | case4 c s _ hc hnil ih =>
    have hc : ends.isEnd c = false := by simpa using hc
    rw [List.cons_append, List.cons_append, splitLines_cons hc, splitLines_cons hc, ih]
    cases hlines : splitLines ends (s ++ ['\n']) with
    | nil => exact absurd hlines (splitLines_ne_nil (by simp))
    | cons line lines => rfl
  | case5 c s _ hc first lines hlines ih =>
    have hc : ends.isEnd c = false := by simpa using hc
    rw [List.cons_append, List.cons_append, splitLines_cons hc, splitLines_cons hc, ih]
    cases hlines : splitLines ends (s ++ ['\n']) with
    | nil => exact absurd hlines (splitLines_ne_nil (by simp))
    | cons line lines => rfl

theorem splitLines_append {s : List Char} (h : atLineStart s = true) (tail : List Char) :
    splitLines ends (s ++ tail) = splitLines ends s ++ splitLines ends tail := by
  rcases List.eq_nil_or_concat s with rfl | ⟨s, c, rfl⟩
  · rfl
  · rw [List.concat_eq_append] at h ⊢
    obtain rfl : c = '\n' := by simpa [atLineStart] using h
    rw [List.append_assoc, List.singleton_append, splitLines_append_feed]

theorem not_isEnd_of_mem_splitLines {s line : List Char} (h : line ∈ splitLines ends s) :
    ∀ c ∈ line, ends.isEnd c = false := by
  fun_induction splitLines ends s generalizing line with
  | case1 => cases h
  | case2 s ih =>
    rcases List.mem_cons.mp h with rfl | h
    · exact nofun
    · exact ih h
  | case3 c s _ hc ih =>
    rcases List.mem_cons.mp h with rfl | h
    · exact nofun
    · exact ih h
  | case4 c s _ hc hnil ih =>
    obtain rfl := List.mem_singleton.mp h
    intro d hd
    obtain rfl := List.mem_singleton.mp hd
    simpa using hc
  | case5 c s _ hc first lines hlines ih =>
    rcases List.mem_cons.mp h with rfl | h
    · intro d hd
      rcases List.mem_cons.mp hd with rfl | hd
      · simpa using hc
      · exact ih (by rw [hlines]; exact List.mem_cons_self) d hd
    · exact ih (by rw [hlines]; exact List.mem_cons_of_mem first h)

/-- **The reader finds the written lines exactly when none of them holds a line end.** -/
theorem splitLines_eq_iff (lines : List (List Char)) :
    splitLines ends (joinLines lines) = lines ↔ ∀ line ∈ lines, ∀ c ∈ line, ends.isEnd c = false := by
  constructor
  · intro h line hline
    rw [← h] at hline
    exact not_isEnd_of_mem_splitLines hline
  · intro h
    have hsplit := splitLines_joinLines h []
    rw [List.append_nil] at hsplit
    rw [hsplit, splitLines, List.append_nil]

/-- What is read of a written line: a carriage return before the line feed is part of the
line end. -/
def readLine (line : List Char) : List Char :=
  if line.getLast? = some '\r' then line.dropLast else line

theorem readLine_cons {c : Char} {line : List Char} (h : c ≠ '\r' ∨ line ≠ []) :
    readLine (c :: line) = c :: readLine line := by
  cases line with
  | nil =>
    have hc : c ≠ '\r' := h.resolve_right fun hne => hne rfl
    simp [readLine, hc]
  | cons d line =>
    unfold readLine
    rw [List.getLast?_cons_cons]
    split
    · rfl
    · rfl

theorem readLine_concat {line : List Char} {c : Char} (h : c ≠ '\r') :
    readLine (line ++ [c]) = line ++ [c] :=
  if_neg (by simp [h])

variable (ends) in
theorem splitLines_feed_pos (line : List Char) : 0 < (splitLines ends (line ++ ['\n'])).length :=
  List.length_pos_of_ne_nil (splitLines_ne_nil (by simp))

theorem length_splitLines_feed (line : List Char) :
    (splitLines ends (line ++ ['\n'])).length = 1 ↔ ∀ c ∈ readLine line, ends.isEnd c = false := by
  fun_induction splitLines ends line with
  | case1 => simp [readLine, splitLines_feed, splitLines]
  | case2 s ih =>
    have hpos := splitLines_feed_pos ends s
    refine iff_of_false (fun h => ?_) (fun h => ?_)
    · simp only [List.cons_append, splitLines.eq_2, List.length_cons] at h
      omega
    · have hmem : '\r' ∈ readLine ('\r' :: '\n' :: s) := by
        rw [readLine_cons (.inr (List.cons_ne_nil _ _))]
        exact List.mem_cons_self
      exact Bool.noConfusion (ends.carriage.symm.trans (h _ hmem))
  | case3 c s hpair hc ih =>
    by_cases hlast : c = '\r' ∧ s = []
    · obtain ⟨rfl, rfl⟩ := hlast
      simp [readLine, splitLines]
    · -- the line end splits the line in two
      have hpos := splitLines_feed_pos ends s
      have hsplit : splitLines ends (c :: (s ++ ['\n'])) = [] :: splitLines ends (s ++ ['\n']) := by
        rw [splitLines.eq_3, if_pos hc]
        rintro s' rfl heq
        cases s with
        | nil => exact hlast ⟨rfl, rfl⟩
        | cons d s =>
          obtain ⟨rfl, -⟩ := List.cons.inj heq
          exact hpair s rfl rfl
      refine iff_of_false (fun h => ?_) (fun h => ?_)
      · rw [List.cons_append, hsplit, List.length_cons] at h
        omega
      · have hmem : c ∈ readLine (c :: s) := by
          rw [readLine_cons (not_and_or.mp hlast)]
          exact List.mem_cons_self
        rw [h c hmem] at hc
        cases hc
  | case4 c s hpair hc hnil ih | case5 c s hpair hc first lines hlines ih =>
    have hc : ends.isEnd c = false := by simpa using hc
    have hne : c ≠ '\r' := by
      rintro rfl
      rw [ends.carriage] at hc
      cases hc
    rw [List.cons_append, splitLines_cons hc, readLine_cons (.inl hne), List.forall_mem_cons,
      and_iff_right hc, ← ih]
    cases hrest : splitLines ends (s ++ ['\n']) with
    | nil => exact absurd hrest (splitLines_ne_nil (by simp))
    | cons line lines => rfl

theorem splitLines_readLine {line : List Char} (h : ∀ c ∈ readLine line, ends.isEnd c = false) :
    splitLines ends (line ++ ['\n']) = [readLine line] := by
  induction line with
  | nil => simp [readLine, splitLines_feed, splitLines]
  | cons c line ih =>
    by_cases hlast : c = '\r' ∧ line = []
    · obtain ⟨rfl, rfl⟩ := hlast
      simp [readLine, splitLines]
    · rw [readLine_cons (not_and_or.mp hlast)] at h ⊢
      obtain ⟨hc, hrest⟩ := List.forall_mem_cons.mp h
      rw [List.cons_append, splitLines_cons hc, ih hrest]

/-- **Every written line is read, as a line of its own, exactly when each of them is read as
one line.** -/
theorem forall₂_splitLines_joinLines {α : Type} {Reads : α → List Char → Prop} {text : α → List Char}
    (written : List α) :
    List.Forall₂ Reads written (splitLines ends (joinLines (written.map text))) ↔
      ∀ a ∈ written, (∀ c ∈ readLine (text a), ends.isEnd c = false) ∧ Reads a (readLine (text a)) := by
  have hcons : ∀ (a : α) (written : List α),
      splitLines ends (joinLines ((a :: written).map text)) =
        splitLines ends (text a ++ ['\n']) ++ splitLines ends (joinLines (written.map text)) :=
    fun a written => by rw [List.map_cons, joinLines_cons, splitLines_append_feed]
  have hlength : ∀ written : List α,
      written.length ≤ (splitLines ends (joinLines (written.map text))).length := by
    intro written
    induction written with
    | nil => exact Nat.zero_le _
    | cons a written ih =>
      have hpos := splitLines_feed_pos ends (text a)
      rw [hcons, List.length_append, List.length_cons]
      omega
  induction written with
  | nil => simp [joinLines, splitLines]
  | cons a written ih =>
    rw [hcons, List.forall_mem_cons]
    constructor
    · intro h
      have hsame := h.length_eq
      have hpos := splitLines_feed_pos ends (text a)
      have hrest := hlength written
      rw [List.length_append, List.length_cons] at hsame
      have hlines : (splitLines ends (text a ++ ['\n'])).length = 1 := by omega
      have hone := (length_splitLines_feed (text a)).mp hlines
      rw [splitLines_readLine hone, List.singleton_append, List.forall₂_cons] at h
      exact ⟨⟨hone, h.1⟩, ih.mp h.2⟩
    · rintro ⟨⟨hone, hreads⟩, hrest⟩
      rw [splitLines_readLine hone, List.singleton_append]
      exact .cons hreads (ih.mpr hrest)

end Lines

/-! ## Values on lines -/

section Values
variable (limits : ScanLimits)

/-- What is read of lines: a line that is no JSON is skipped, one that nests too deep
raises. -/
def loadLines : List (List Char) → Except Unit (List JsonTree)
  | [] => .ok []
  | line :: lines =>
    match jsonLoads limits line with
    | .ok value => (loadLines lines).map (value :: ·)
    | .error .invalid => loadLines lines
    | .error .tooDeep => .error ()

/-- The text of a value ends no line of the reader. -/
def Unbroken (ends : LineEnds) (value : JsonTree) : Prop :=
  ∀ c : Char, 127 ≤ c.toNat → c.toNat ∈ textPoints value → ends.isEnd c = false

variable {limits} {ends : LineEnds}

theorem loadLines_append (a b : List (List Char)) :
    loadLines limits (a ++ b) = (loadLines limits a).bind fun values =>
      (loadLines limits b).map (values ++ ·) := by
  induction a with
  | nil =>
    cases h : loadLines limits b with
    | error e => simp [loadLines, h, Except.bind, Except.map]
    | ok values => simp [loadLines, h, Except.bind, Except.map]
  | cons line a ih =>
    simp only [List.cons_append, loadLines, ih]
    cases jsonLoads limits line with
    | error e => cases e <;> rfl
    | ok value => cases loadLines limits a <;> cases loadLines limits b <;> rfl

theorem line_unbroken_iff {value : JsonTree} {line : List Char}
    (h : jsonDumps limits value = some line) :
    (∀ c ∈ line, ends.isEnd c = false) ↔ Unbroken ends value := by
  obtain ⟨hfits, hline⟩ := Option.ite_none_right_eq_some.mp h
  obtain rfl := Option.some.inj hline
  constructor
  · intro hall c hc hmem
    refine hall c ((brings_of_fits ?_ 0 value hfits).mpr ⟨hc, hmem⟩)
    simp only [isPlain, Bool.and_eq_false_iff, decide_eq_false_iff_not]
    omega
  · intro hunbroken c hc
    cases hplain : isPlain c with
    | true => exact ends.plain c hplain
    | false =>
      obtain ⟨hlarge, hmem⟩ := (brings_of_fits hplain 0 value hfits).mp hc
      exact hunbroken c hlarge hmem

theorem exists_dumpEntries (entries : List (List Nat × JsonTree)) :
    ∃ s, dumpEntries .line 0 entries = s ++ ['}'] := by
  induction entries with
  | nil => exact ⟨[], rfl⟩
  | cons e entries ih =>
    obtain ⟨s, hs⟩ := ih
    rw [dumpEntries, hs]
    exact ⟨_, (List.append_assoc _ s ['}']).symm⟩

theorem exists_line_obj {entries : List (List Nat × JsonTree)} {line : List Char}
    (h : jsonDumps limits (.obj entries) = some line) : ∃ s, line = '{' :: (s ++ ['}']) := by
  obtain ⟨-, hline⟩ := Option.ite_none_right_eq_some.mp h
  obtain rfl := Option.some.inj hline
  cases entries with
  | nil => exact ⟨[], rfl⟩
  | cons e entries =>
    obtain ⟨s, hs⟩ := exists_dumpEntries entries
    rw [dump, hs]
    exact ⟨_, congrArg ('{' :: ·) (List.append_assoc _ s ['}']).symm⟩

theorem unbroken_obj_iff {entries : List (List Nat × JsonTree)} :
    Unbroken ends (.obj entries) ↔ ∀ e ∈ entries, Unbroken ends (.str e.1) ∧ Unbroken ends e.2 := by
  have hpoints : ∀ n, n ∈ textPointsEntries entries ↔
      ∃ e ∈ entries, n ∈ e.1 ∨ n ∈ textPoints e.2 := by
    intro n
    induction entries with
    | nil => simp [textPointsEntries]
    | cons e entries ih => simp [textPointsEntries, ih, or_assoc]
  constructor
  · exact fun h e he => ⟨fun c hc hmem => h c hc ((hpoints _).mpr ⟨e, he, .inl hmem⟩),
      fun c hc hmem => h c hc ((hpoints _).mpr ⟨e, he, .inr hmem⟩)⟩
  · intro h c hc hmem
    obtain ⟨e, he, hmem | hmem⟩ := (hpoints _).mp hmem
    · exact (h e he).1 c hc hmem
    · exact (h e he).2 c hc hmem

theorem unbroken_universal (value : JsonTree) : Unbroken .universal value := by
  intro c hc _
  have hfeed : c ≠ '\n' := by
    rintro rfl
    exact absurd hc (by decide)
  have hcarriage : c ≠ '\r' := by
    rintro rfl
    exact absurd hc (by decide)
  simp [LineEnds.universal, hfeed, hcarriage]

theorem feed_not_mem_line {value : JsonTree} {line : List Char}
    (h : jsonDumps limits value = some line) : '\n' ∉ line := by
  intro hmem
  have hends := (line_unbroken_iff h).mpr (unbroken_universal value) '\n' hmem
  rw [LineEnds.universal.feed] at hends
  cases hends

/-- The lines of values that were written. -/
inductive Written (limits : ScanLimits) : List JsonTree → List (List Char) → Prop
  | nil : Written limits [] []
  | cons {value : JsonTree} {line : List Char} {values : List JsonTree} {lines : List (List Char)} :
      jsonDumps limits value = some line → Written limits values lines →
      Written limits (value :: values) (line :: lines)

theorem Written.append {a b : List JsonTree} {as bs : List (List Char)} (ha : Written limits a as)
    (hb : Written limits b bs) : Written limits (a ++ b) (as ++ bs) := by
  induction ha with
  | nil => exact hb
  | cons h _ ih => exact .cons h ih

theorem Written.loadLines {values : List JsonTree} {lines : List (List Char)}
    (h : Written limits values lines) : loadLines limits lines = .ok values := by
  induction h with
  | nil => rfl
  | cons h _ ih => rw [Library.loadLines, loads_of_dumps h, ih]; rfl

theorem Written.unbroken_iff {values : List JsonTree} {lines : List (List Char)}
    (h : Written limits values lines) :
    (∀ line ∈ lines, ∀ c ∈ line, ends.isEnd c = false) ↔ ∀ v ∈ values, Unbroken ends v := by
  induction h with
  | nil => simp
  | cons h _ ih => rw [List.forall_mem_cons, List.forall_mem_cons, ih, line_unbroken_iff h]

/-- The file of values that were appended one behind the other. -/
inductive StoredLines (limits : ScanLimits) : List JsonTree → List Char → Prop
  | nil : StoredLines limits [] []
  | append {values : List JsonTree} {file : List Char} {value : JsonTree} {line : List Char} :
      StoredLines limits values file → jsonDumps limits value = some line →
      StoredLines limits (values ++ [value]) (file ++ line ++ ['\n'])

theorem StoredLines.lines {values : List JsonTree} {file : List Char} (h : StoredLines limits values file) :
    ∃ lines, Written limits values lines ∧ file = joinLines lines := by
  induction h with
  | nil => exact ⟨[], .nil, rfl⟩
  | append _ hline ih =>
    obtain ⟨lines, hwritten, rfl⟩ := ih
    refine ⟨lines ++ [_], hwritten.append (.cons hline .nil), ?_⟩
    rw [joinLines_append, joinLines_cons, List.append_assoc]
    rfl

section Saves
variable {κ ε : Type} (save : κ → List Char → Except ε (JsonTree × List Char))

/-- Saves one behind the other into a new file, where all of them succeed: the values
and the file. -/
def saveAll (calls : List κ) : Except ε (List JsonTree × List Char) :=
  calls.foldlM (fun (values, file) call => do
    let (value, file) ← save call file
    return (values ++ [value], file)) ([], [])

/-- A successful save appends the line of a value of its call. -/
def Appends (limits : ScanLimits) (ValueOf : κ → JsonTree → Prop) : Prop :=
  ∀ call file value file', save call file = .ok (value, file') →
    ValueOf call value ∧ ∃ line, jsonDumps limits value = some line ∧ file' = file ++ line ++ ['\n']

variable {save}

theorem saveAll_ok {ValueOf : κ → JsonTree → Prop} (hsave : Appends save limits ValueOf)
    {calls : List κ} {values : List JsonTree} {file : List Char}
    (h : saveAll save calls = .ok (values, file)) :
    StoredLines limits values file ∧ List.Forall₂ ValueOf calls values := by
  have hrun : ∀ (calls : List κ) (done : List JsonTree) (start : List Char),
      StoredLines limits done start →
      calls.foldlM (fun (values, file) call => do
        let (value, file) ← save call file
        return (values ++ [value], file)) (done, start) = .ok (values, file) →
      StoredLines limits values file ∧ ∃ added, values = done ++ added ∧
        List.Forall₂ ValueOf calls added := by
    intro calls
    induction calls with
    | nil =>
      intro done start hdone hfold
      obtain ⟨rfl, rfl⟩ := Prod.mk.inj (Except.ok.inj hfold)
      exact ⟨hdone, [], (List.append_nil _).symm, .nil⟩
    | cons call calls ih =>
      intro done start hdone hfold
      rw [List.foldlM_cons] at hfold
      obtain ⟨⟨done', start'⟩, hstep, hfold⟩ := bind_eq_ok.mp hfold
      obtain ⟨⟨value, start''⟩, hvalue, hstep⟩ := bind_eq_ok.mp hstep
      obtain ⟨rfl, rfl⟩ := Prod.mk.inj (Except.ok.inj hstep)
      obtain ⟨hof, line, hline, rfl⟩ := hsave _ _ _ _ hvalue
      obtain ⟨hstored, added, rfl, hadded⟩ := ih _ _ (hdone.append hline) hfold
      exact ⟨hstored, value :: added, by rw [List.append_assoc]; rfl, .cons hof hadded⟩
  obtain ⟨hstored, added, rfl, hadded⟩ := hrun calls [] [] .nil h
  exact ⟨hstored, hadded⟩

end Saves

/-- **Values whose texts hold no line end are read back.** -/
theorem loadLines_stored {values : List JsonTree} {lines : List (List Char)}
    (h : Written limits values lines) (hunbroken : ∀ v ∈ values, Unbroken ends v) :
    loadLines limits (splitLines ends (joinLines lines)) = .ok values := by
  rw [(splitLines_eq_iff lines).mpr (h.unbroken_iff.mpr hunbroken), h.loadLines]

/-- The lines of the file, and what is read of them, are those of the values. -/
def Lossless (limits : ScanLimits) (ends : LineEnds) (values : List JsonTree) (file : List Char) :
    Prop :=
  Written limits values (splitLines ends file) ∧
    loadLines limits (splitLines ends file) = .ok values

/-- **A store is lossless exactly when no text in it holds a line end.** -/
theorem StoredLines.lossless_iff {values : List JsonTree} {file : List Char}
    (h : StoredLines limits values file) :
    Lossless limits ends values file ↔ ∀ v ∈ values, Unbroken ends v := by
  obtain ⟨lines, hwritten, rfl⟩ := h.lines
  constructor
  · rintro ⟨hlines, -⟩
    exact hlines.unbroken_iff.mp fun line hline => not_isEnd_of_mem_splitLines hline
  · intro hunbroken
    have hsplit := (splitLines_eq_iff lines).mpr (hwritten.unbroken_iff.mpr hunbroken)
    refine ⟨?_, loadLines_stored hwritten hunbroken⟩
    rwa [hsplit]

end Values

end HamZaboon.Library
